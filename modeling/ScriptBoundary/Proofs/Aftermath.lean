import ScriptBoundary.Proofs.Collection
import ScriptBoundary.Proofs.Steps

/-!
# After the end of an instance

An instance that was destroyed leaves things behind. Its function objects may be held by handles or
by objects of other instances, its handles may be out, and the collector may yet report anchors that
were its own. Each of these finds the same thing: the instance does not come back, and nothing can
be registered on it. So its table stays empty, and whoever looks a callback of it up finds none.

The guarantees are about every scene in which the instance has ended, however that scene was come to
from the end of it, and about every function object with an anchor of the instance, wherever it is
held.

## Main results

* `Scene.Sound.run_hasEnded`: an instance that has ended does not come back
* `Scene.Sound.aftermath`: what can be done with what is left of it
-/

namespace ScriptBoundary.Boundary

open Script (Activation Anchor Builtins Completion Machine Program Ref)

variable {σ : Type}

/-! ## There is no way back -/

namespace World

variable {w w' : World} {i j : InstanceId}

/-- Whether an instance was made and is not alive any more. -/
def HasEnded (w : World) (i : InstanceId) : Prop := (w.desk i).map (·.isLive) = some false

instance (w : World) (i : InstanceId) : Decidable (w.HasEnded i) :=
  inferInstanceAs (Decidable (_ = _))

theorem HasEnded.isAlive (h : w.HasEnded i) : w.isAlive i = false := by
  rw [World.isAlive, h]
  rfl

theorem HasEnded.congr (h : w.HasEnded i) (hdesk : w'.desk i = w.desk i) : w'.HasEnded i := by
  rwa [HasEnded, hdesk]

/-- No change of an instance brings one back that has ended, unless it says so. -/
theorem HasEnded.updateInstance (h : w.HasEnded i) {f : Instance → Instance}
    (hf : ∀ x, x.isLive = false → (f x).isLive = false) : (w.updateInstance j f).HasEnded i := by
  rw [HasEnded, desk, Option.map_map] at h ⊢
  obtain ⟨x, hx, hdead⟩ := Option.map_eq_some_iff.mp h
  rw [instance?_updateInstance]
  split
  · rw [hx]
    exact congrArg some (hf x hdead)
  · exact h

theorem HasEnded.shut (h : w.isAlive i = true) : (w.shut i).HasEnded i := by
  have hthere : ((w.shut i).purse.ledger i).isSome := by
    rw [purse_shut, purse, Option.isSome_map]
    exact hasInstance_of_isAlive h
  rw [purse, Option.isSome_map] at hthere
  obtain ⟨x, hx⟩ := Option.isSome_iff_exists.mp hthere
  have hdead : (w.shut i).isAlive i = false := isAlive_close i
  rw [World.isAlive, desk, hx] at hdead
  rw [HasEnded, desk, hx]
  exact congrArg some hdead

/-- No callback of an instance that is not alive is found. -/
theorem callbackOf_of_dead {a : Anchor} (h : w.isAlive a.owner = false) :
    w.callbackOf a = none := by
  rw [callbackOf_eq, h]
  rfl

end World

/-- No change brings an instance back, and none registers anything on it. -/
theorem Account.change_hasEnded {made : InstanceId → List Callback} {w w' : World} {x : Change}
    {i : InstanceId} (h : Account made w) (hx : x.apply w = some w') (hi : w.HasEnded i) :
    w'.HasEnded i ∧ ∀ realm cb, x ≠ .register i realm cb := by
  obtain ⟨j, realm, cb, rfl, halive, rfl⟩ | hr := Change.register_or hx
  · obtain ⟨f, hcalls⟩ := World.register_eq halive realm cb
    refine ⟨?_, fun realm' cb' heq => ?_⟩
    · have hentered : (w.updateTable j fun t => t.register ⟨cb, f⟩).HasEnded i :=
        hi.updateInstance fun _ hdead => hdead
      exact hentered.congr (congrFun (congrArg Calls.desk hcalls) i)
    · cases heq
      rw [hi.isAlive] at halive
      cases halive
  · refine ⟨(h.change_keeps (P := fun u => u.HasEnded i) hi hx hr ?_ ?_ ?_ ?_).2, hr i⟩
    · exact fun u u' hcalls hu => hu.congr (congrFun (congrArg Calls.desk hcalls) i)
    · intro u limits _ hu
      refine hu.congr ?_
      rw [World.desk_newInstance, if_neg]
      rintro rfl
      rw [World.HasEnded, World.desk_size] at hu
      cases hu
    · intro u a cb _ hu
      have htable : (u.updateTable a.owner fun t => t.retire a.id).HasEnded i :=
        hu.updateInstance fun _ hdead => hdead
      exact htable.congr (congrFun (World.desk_retire u a cb) i)
    · exact fun u j hu => hu.updateInstance fun _ _ => rfl

namespace Scene

variable {ms ns : List Move} {c d : Scene} {m : Move} {i : InstanceId}

/-- **One move does not bring an instance back**, and registers nothing on it. -/
theorem Sound.step_hasEnded (h : c.Sound ms) (hm : c.step m = some d)
    (hi : c.world.HasEnded i) : d.world.HasEnded i ∧ registrations [m] i = [] := by
  cases Scene.stepped hm with
  | @change w w' st x hx =>
    obtain ⟨hended, hnot⟩ := h.account.change_hasEnded hx hi
    refine ⟨hended, ?_⟩
    rw [registrations, List.filterMap_cons]
    split
    · rfl
    · next hsome =>
      split at hsome
      · next j realm cb heq =>
        split at hsome
        · next hji =>
          subst hji
          exact absurd (Move.change.inj heq) (hnot realm cb)
        · cases hsome
      · cases hsome
  | beginLent => exact ⟨hi, rfl⟩
  | beginOwn => exact ⟨hi.updateInstance fun _ hdead => hdead, rfl⟩
  | finishLent => exact ⟨hi, rfl⟩
  | finishOwn => exact ⟨hi.updateInstance fun _ hdead => hdead, rfl⟩
  | @enter w st v =>
    have hcalled : ({ w with inFlight := v :: w.inFlight } : World).HasEnded i := hi
    exact ⟨hcalled.updateInstance fun _ hdead => hdead, rfl⟩
  | @leave w st v before =>
    have hlent : (w.updateInstance v.anchor.owner fun x => { x with lent := before }).HasEnded i :=
      World.HasEnded.updateInstance (w := w) hi fun _ hdead => hdead
    exact ⟨hlent.congr (congrFun (World.leave_cases w v.anchor before).1 i), rfl⟩

/-- **No run brings an instance back**, or registers anything on it. -/
theorem Sound.run_hasEnded (h : c.Sound ms) (hr : c.run ns = some d) (hi : c.world.HasEnded i) :
    d.Sound (ms ++ ns) ∧ d.world.HasEnded i ∧ registrations ns i = [] := by
  refine Scene.run_induction
    (P := fun ns d => d.Sound (ms ++ ns) ∧ d.world.HasEnded i ∧ registrations ns i = [])
    ⟨by rwa [List.append_nil], hi, rfl⟩ ?_ hr
  rintro ns d m e ⟨hsound, hended, hnone⟩ hm
  obtain ⟨hended', hnone'⟩ := hsound.step_hasEnded hm hended
  refine ⟨?_, hended', ?_⟩
  · rw [← List.append_assoc]
    exact (hsound.step hm).1
  · rw [registrations_append, hnone, hnone', List.append_nil]

/-- No callback of an instance that has ended is entered. -/
theorem Sound.not_entered (h : c.Sound ms) (hr : c.run ns = some d) (hi : c.world.HasEnded i)
    {v : Invocation} (hv : .enter v ∈ ns) : v.anchor.owner ≠ i := by
  induction ns generalizing c ms with
  | nil => cases hv
  | cons m ns ih =>
    obtain ⟨e, hm, hr⟩ := Option.bind_eq_some_iff.mp hr
    rcases List.mem_cons.mp hv with rfl | hv
    · rintro rfl
      rw [Scene.step, World.callbackOf_of_dead hi.isAlive] at hm
      simp at hm
    · exact ih (h.step hm).1 hr (h.step_hasEnded hm hi).1 hv

end Scene

/-! ## What is left can be used -/

/-- What giving back a handle does whose instance has this number. -/
structure World.GivesBack (w w' : World) (i : InstanceId) (h : Handle) : Prop where
  /-- The handle is out no longer, and every other one is as it was. -/
  cell : ∀ x, w'.cell? x = if x = h then none else w.cell? x
  /-- It is entered in the ledger of its instance, and in no other. -/
  instances : ∀ j, w'.instance? j = if i = j
    then (w.instance? j).map fun x => { x with ledger := x.ledger.release } else w.instance? j
  /-- Nothing else is touched. -/
  rest : { w' with handles := w.handles, instances := w.instances } = w

/-- What there is of an instance that has ended, and what can be done with it. -/
structure Aftermath (c : Scene) (i : InstanceId) (made : Nat) : Prop where
  /-- None of its registrations is live; all that there ever were are counted as finalized. -/
  counted : (c.world.table i).live = 0 ∧ (c.world.table i).finalized = made
  /-- No callback of it is running, and none will be. -/
  silent : c.world.isAlive i = false ∧
    ∀ ns d, c.run ns = some d → ∀ v, .enter v ∈ ns → v.anchor.owner ≠ i
  /-- A script that calls one of its function objects, wherever it runs, goes on with undefined.
  Nothing has happened meanwhile to the world or to the host. -/
  script : ∀ {σ : Type} (host : Host σ) (n : Nat) (g : σ) (library : Builtins) (depth : Nat)
    (a : Anchor) (f : Ref) (this : Script.Value) (args : List Script.Value) (act : Activation)
    (next : Completion Script.Value → Program),
    a.owner = i → IsFunctionOf c.world.heap a f → act.HasRoom →
    runProgram (invokeAt host (n + 1))
        (Machine.ofDepth library (depth + 1) (.call (.object f) this args) act next) ⟨c.world, g⟩ =
      runProgram (invokeAt host (n + 1)) (next (.value .undefined)) ⟨c.world, g⟩
  /-- The host that calls one through a handle, on whatever instance, gets undefined. What it
  passed is taken and no handle is made. What the host is makes no difference. -/
  host : ∀ (a : Anchor) (f : Ref) (h : Handle) (j : InstanceId) (act : Activation) (this : Value)
    (args : List Value),
    a.owner = i → IsFunctionOf c.world.heap a f → c.world.referent h = .object f →
    c.world.context? j = some act → act.HasRoom →
    ∃ w, (∀ {σ : Type} (host : Host σ) (n : Nat) (g : σ),
        answer (invokeAt host (n + 1)) (.call j h this args) ⟨c.world, g⟩ =
          .ok (⟨.undefined, false⟩, ⟨w, g⟩))
      ∧ w.purse = c.world.purse.takeAll (this :: args)
      ∧ ∀ x cell, w.cell? x = some cell → c.world.cell? x = some cell
  /-- The collector may report any of its anchors, and nothing comes of it. -/
  finalize : ∀ id, c.world.finalize ⟨i, id⟩ = c.world
  /-- Its handles can be given back, and its ledger goes on. -/
  release : ∀ (h : Handle) (cell : HandleCell), c.world.cell? h = some cell → cell.owner = i →
    ∃ w, (∀ {σ : Type} (invoke : Invoke σ) (g : σ),
        answer invoke (.release h) ⟨c.world, g⟩ = .ok ((), ⟨w, g⟩))
      ∧ c.world.GivesBack w i h

/-- Taking values over makes no handle. -/
theorem Purse.cell?_of_takeAll {p : Purse} {us : List Value} {h : Handle} {c : HandleCell}
    (hc : (p.takeAll us).cell? h = some c) : p.cell? h = some c := by
  by_cases hmem : h ∈ handlesOf us
  · rw [cell?_takeAll hmem] at hc
    cases hc
  · rwa [cell?_takeAll_of_not_mem hmem] at hc

/-- **A call of a function object whose callback is gone**, by the host: the arguments are taken,
and the outcome is undefined. -/
theorem answer_call_gone {w : World} {a : Anchor} {f : Ref} {h : Handle} {j : InstanceId}
    {act : Activation} (this : Value) (args : List Value) (ha : w.callbackOf a = none)
    (hf : IsFunctionOf w.heap a f) (href : w.referent h = .object f)
    (hact : w.context? j = some act) (hroom : act.HasRoom) (host : Host σ) (n : Nat) (g : σ) :
    answer (invokeAt host (n + 1)) (.call j h this args) ⟨w, g⟩ =
      .ok (⟨.undefined, false⟩,
        ⟨((w.occupy j).decodeAll act.realm (this :: args)).2.relinquish (w.usesOwn j) j, g⟩) := by
  obtain ⟨⟨j, us, body⟩, k, he, rfl, rfl, rfl, -, -, hsteps⟩ :=
    steps_call host (n + 1) (s := ⟨w, g⟩) j this args href hf hroom
  let e : Errand := ⟨j, this :: args, body⟩
  have hgone : (e.opening act ⟨w, g⟩).world.callbackOf k.anchor = none :=
    (e.callbackOf_opening act ⟨w, g⟩ k.anchor).trans ha
  have hrun := (hsteps.trans (.gone hgone n.succ_ne_zero (.refl _ _))).runProgram_eq
  have hconclude : conclude (invokeAt host (n + 1)) j act (.value .undefined)
      (e.opening act ⟨w, g⟩) = .ok (⟨.undefined, false⟩, e.opening act ⟨w, g⟩) := rfl
  obtain ⟨o, ho, hanswer⟩ := answer_errand he hact hrun hconclude
  obtain rfl := Option.some.inj ho
  exact hanswer

theorem World.givesBack_releaseHandle {w : World} {h : Handle} {c : HandleCell}
    (hc : w.cell? h = some c) : w.GivesBack (w.releaseHandle h) c.owner h := by
  refine ⟨fun x => ?_, fun j => ?_, ?_⟩
  · rw [← cell?_purse, purse_releaseHandle]
    split
    · next hx =>
      subst hx
      exact Purse.cell?_take _ _
    · next hx => exact Purse.cell?_take_of_ne hx
  · rw [releaseHandle, hc]
    exact instance?_updateInstance _ _ _ _
  · rw [releaseHandle, hc]
    rfl

/-- **What can be done with what is left** of an instance that has ended. -/
theorem Scene.Sound.aftermath {ms : List Move} {c : Scene} {i : InstanceId} (h : c.Sound ms)
    (hi : c.world.HasEnded i) : Aftermath c i (registrations ms i).length := by
  have hgone : ∀ a : Anchor, a.owner = i → c.world.callbackOf a = none := by
    rintro a rfl
    exact World.callbackOf_of_dead hi.isAlive
  constructor
  case counted =>
    have hcensus := h.account.census i
    have hnone : (c.world.table i).live = 0 := by
      rw [CallbackTable.live, h.account.closed i hi.isAlive]
      rfl
    exact ⟨hnone, by omega⟩
  case silent => exact ⟨hi.isAlive, fun ns d hr v hv => h.not_entered hr hi hv⟩
  case script =>
    intro σ host n g library depth a f this args act next ha hf hroom
    obtain ⟨k, hk, -, -, hrun⟩ := runProgram_callTask (s := ⟨c.world, g⟩) host (n + 1) library depth
      hf hroom this args next
    rw [hrun, invokeAt_gone (hk ▸ hgone a ha)]
  case host =>
    intro a f x j act this args ha hf href hact hroom
    refine ⟨_, fun host n g => answer_call_gone this args (hgone a ha) hf href hact hroom host n g,
      ?_⟩
    have hpurse : (((c.world.occupy j).decodeAll act.realm (this :: args)).2.relinquish
        (c.world.usesOwn j) j).purse = c.world.purse.takeAll (this :: args) := by
      rw [(World.SameStore.relinquish _ _ j).purse, World.purse_decodeAll,
        (World.SameStore.occupy c.world j).purse]
    refine ⟨hpurse, fun y cell hcell => ?_⟩
    rw [← World.cell?_purse, hpurse] at hcell
    exact Purse.cell?_of_takeAll hcell
  case finalize =>
    intro id
    rw [World.finalize, hgone ⟨i, id⟩ rfl]
  case release =>
    rintro x cell hcell rfl
    exact ⟨_, fun invoke g => rfl, World.givesBack_releaseHandle hcell⟩

end ScriptBoundary.Boundary
