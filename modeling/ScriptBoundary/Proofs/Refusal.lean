import ScriptBoundary.Proofs.Lifecycle
import ScriptBoundary.Proofs.Rejection
import ScriptBoundary.Proofs.Steps

/-!
# Calls that are refused

A foreign callback is called through the wrapper of the pair that is installed. Without a pair there
is nobody to call, and with more arguments than can be counted there is no way to tell them. By then
the arguments have been handed over: there are handles to them, and the code that would have given
them back is the host's. So a refusal gives them back itself, and then throws.

What makes it a refusal is that the host has no part in it. `invokeAt_refused` gives the outcome and
the world that is left before it says which host is running, so they are the same for all of them.

Handles are made and given back on the way. `World.Trades` is that this is all that happens between
two worlds: an instance has made so many of them and got back so many, and whatever is not a handle
or a ledger is as it was. Such facts add up.

## Main results

* `run_refuse`: what the code of a refusal does
* `World.trades_releaseAll`: what giving back comes to in the ledger
* `invokeAt_refused`: a refused call from beginning to end
-/

namespace ScriptBoundary.Script

/-- Adds an error object of a realm. -/
def Heap.addError (h : Heap) (realm : Ref) (message : String) : Heap × Ref :=
  h.apply (.newObject .error (some ((h.realm realm).base + ErrorClass.error.proto.ctorIdx))
    (.ofList [(Key.ofString "message", Slot.hidden (Value.ofString message))]))

end ScriptBoundary.Script

namespace ScriptBoundary.Boundary

open Script (Activation Anchor Comp Completion HostCall Ref)

variable {σ : Type}

/-! ## Handles that come and go -/

/-- Enters that so many handles were made and so many given back. -/
def Ledger.trade (l : Ledger) (made back : Nat) : Ledger :=
  { l with created := l.created + made, released := l.released + back }

/-- The instance in whose ledger that was entered. -/
def Instance.trade (x : Instance) (made back : Nat) : Instance :=
  { x with ledger := x.ledger.trade made back }

namespace World

variable {w w' w'' : World} {i : InstanceId} {made back made' back' : Nat}

/-- Whether two worlds differ in handles only, of which an instance has made so many in between and
got back so many. -/
structure Trades (w w' : World) (i : InstanceId) (made back : Nat) : Prop where
  instances : ∀ j, w'.instance? j =
    (w.instance? j).map fun x => if i = j then x.trade made back else x
  rest : ∃ xs cs, w' = { w with instances := xs, handles := cs }

theorem Trades.refl (w : World) (i : InstanceId) : w.Trades w i 0 0 := by
  refine ⟨fun j => ?_, _, _, rfl⟩
  cases w.instance? j with
  | none => rfl
  | some x => exact congrArg some (ite_self x).symm

theorem Trades.trans (h : w.Trades w' i made back) (h' : w'.Trades w'' i made' back') :
    w.Trades w'' i (made + made') (back + back') := by
  obtain ⟨xs, cs, hrest⟩ := h.rest
  obtain ⟨ys, ds, hrest'⟩ := h'.rest
  refine ⟨fun j => ?_, ys, ds, by rw [hrest', hrest]⟩
  rw [h'.instances, h.instances, Option.map_map]
  refine Option.map_congr fun x _ => ?_
  by_cases hj : i = j
  · simp only [Function.comp_apply, if_pos hj, Instance.trade, Ledger.trade, Nat.add_assoc]
  · simp only [Function.comp_apply, if_neg hj]

theorem trades_newHandle (w : World) (i : InstanceId) (v : Script.Value) :
    w.Trades (w.newHandle i v).2 i 1 0 := by
  refine ⟨fun j => (instance?_updateInstance _ _ _ _).trans ?_, _, _, rfl⟩
  show (if i = j then (w.instance? j).map _ else w.instance? j) = _
  split
  · rfl
  · exact Option.map_id'.symm

theorem trades_encode (w : World) (i : InstanceId) (v : Script.Value) :
    w.Trades (w.encode i v).2 i (w.encode i v).1.handle?.toList.length 0 := by
  rw [encode]
  split
  · next u hu =>
    rw [Form.handle?_of_inline hu]
    exact .refl w i
  · exact trades_newHandle w i v

/-- What is handed over is made, each handle once. -/
theorem trades_encodeAll (w : World) (i : InstanceId) (vs : List Script.Value) :
    w.Trades (w.encodeAll i vs).2 i (Purse.handlesOf (w.encodeAll i vs).1).length 0 := by
  induction vs generalizing w with
  | nil => exact .refl w i
  | cons v vs ih =>
    have hlength : (Purse.handlesOf (w.encodeAll i (v :: vs)).1).length =
        (w.encode i v).1.handle?.toList.length
          + (Purse.handlesOf ((w.encode i v).2.encodeAll i vs).1).length := by
      rw [encodeAll, Purse.handlesOf, List.filterMap_cons]
      cases (w.encode i v).1.handle? with
      | none => simp [Purse.handlesOf]
      | some h => simp [Purse.handlesOf, Nat.add_comm]
    rw [hlength]
    exact (trades_encode w i v).trans (ih _)

/-- **What is given back**, if all of it is out at the expense of one instance and nothing is given
back twice. -/
theorem trades_releaseAll {hs : List Handle} (hout : ∀ h ∈ hs, w.IsOutOf i h) (hn : hs.Nodup) :
    w.Trades (w.releaseAll hs) i 0 hs.length := by
  refine ⟨fun j => ?_, (w.releaseAll hs).instances, (w.releaseAll hs).handles, ?_⟩
  · rw [instance?_releaseAll]
    refine Option.map_congr fun x _ => ?_
    by_cases hj : i = j
    · subst hj
      have hdue : w.due i hs = hs.toFinset := Finset.filter_true_of_mem fun h hmem =>
        hout h (List.mem_toFinset.mp hmem)
      rw [if_pos rfl, hdue, List.toFinset_card_of_nodup hn]
      rfl
    · have hdue : w.due j hs = ∅ := Finset.filter_false_of_mem fun h hmem hother =>
        hj (Option.some.inj ((hout h (List.mem_toFinset.mp hmem)).symm.trans hother))
      rw [if_neg hj, hdue]
      rfl
  · have hrest := rest_releaseAll w hs
    generalize w.releaseAll hs = u at hrest ⊢
    rw [← hrest]

end World

/-! ## The code of a refusal -/

/-- Making an error object is one edit of the heap. -/
theorem runIn_newError (invoke : Invoke σ) (act : Activation) (message : String) (s : State σ) :
    runIn invoke act (Comp.newError .error message) s =
      .ok (.value (.object (s.world.heap.addError act.realm message).2),
        { s with world := { s.world with heap := (s.world.heap.addError act.realm message).1 } }) :=
  rfl

/-- A new error object is handed to the host as an object. -/
theorem Form.of_addError (h : Script.Heap) (realm : Ref) (message : String) :
    Form.of (h.addError realm message).1 (.object (h.addError realm message).2) =
      .composite .object := by
  simp [Script.Heap.addError, Script.Heap.apply, Script.Heap.add, Form.of, Script.Heap.object,
    Kind.ofNature, Script.Nature.isCallable]

/-- The world in which an error has been made and there is a handle to it. -/
def World.withError (w : World) (i : InstanceId) (realm : Ref) (message : String) : World :=
  ({ w with heap := (w.heap.addError realm message).1 }.newHandle i
    (.object (w.heap.addError realm message).2)).2

/-- An error is made in the context that the instance has lent. -/
theorem answer_errorValue (invoke : Invoke σ) (g : σ) {w : World} {i : InstanceId}
    {act : Activation} (hact : w.context? i = some act) (hlent : w.usesOwn i = false)
    (message : String) : answer invoke (.errorValue i (.external message)) ⟨w, g⟩ =
      .ok (.composite .object ⟨w.handles.size⟩, ⟨w.withError i act.realm message, g⟩) := by
  rw [answer_eq_inContext (r := .errorValue i (.external message)) rfl rfl,
    inContext_of_context (s := ⟨w, g⟩) hact, hlent, World.occupy, hlent, if_neg Bool.false_ne_true]
  simp only [BoundaryError.isConversion, Bool.false_eq_true, if_false, Run.bind_apply,
    runIn_newError, conclude, Run.alter_apply, World.encode, Form.of_addError, Run.pure_apply,
    World.relinquish]
  rfl

/-- **The code of a refusal** makes an error and gives back what it was handed. -/
theorem run_refuse (invoke : Invoke σ) (g : σ) {w : World} {i : InstanceId} {act : Activation}
    (hact : w.context? i = some act) (hlent : w.usesOwn i = false) (message : String) (this : Value)
    (args : List Value) : (Host.refuse i message this args).run (answer invoke) ⟨w, g⟩ =
      .ok (.exception (.composite .object ⟨w.handles.size⟩),
        ⟨(w.withError i act.realm message).releaseAll (Purse.handlesOf (args ++ [this])), g⟩) := by
  have hgive : Forgoes (Act.forEach Act.releaseValue args >>= fun _ =>
      Act.releaseValue this >>= fun _ =>
        pure (Outcome.exception (.composite .object ⟨w.handles.size⟩)) : Act σ Outcome)
      [] (args ++ [this]) (.exception (.composite .object ⟨w.handles.size⟩)) :=
    have hthis := (Forgoes.release (σ := σ) this).give fun _ =>
      Outcome.exception (.composite .object ⟨w.handles.size⟩)
    (Forgoes.releaseAll args).bind hthis fun _ => hthis.quiet
  have hrun := hgive.run invoke ⟨w.withError i act.realm message, g⟩
  rw [State.reading_nil] at hrun
  rw [Host.refuse, Act.run_bind, Act.request, Act.run_ask, answer_errorValue invoke g hact hlent]
  exact hrun

/-! ## Who is called -/

/-- The pair that a call of a foreign callback with so many arguments goes to, or what the callback
complains of instead. -/
def World.receiver (w : World) (count : Nat) : Except String LifecyclePair :=
  match w.lifecycle with
  | none => .error "no callback lifecycle functions installed"
  | some pair =>
    if Host.maxArguments < count then .error "too many arguments for a host callback" else .ok pair

/-- **The code of a foreign callback** is that of the wrapper, or that of a refusal. The pair that
counts is the one that is installed when the code begins. -/
theorem run_callForeign (host : Host σ) (invoke : Invoke σ) (g : σ) (w : World)
    (owner target : InstanceId) (context : UInt64) (this : Value) (args : List Value) :
    (host.callForeign owner target context this args).run (answer invoke) ⟨w, g⟩ =
      match w.receiver args.length with
      | .error message => (Host.refuse owner message this args).run (answer invoke) ⟨w, g⟩
      | .ok pair => (host.wrapper pair target context (.ofValue this) (args.map .ofValue) >>=
          Act.consumeOutcome : Act σ Outcome).run (answer invoke) ⟨w, g⟩ := by
  have hasked : (host.callForeign owner target context this args).run (answer invoke) ⟨w, g⟩ =
      (match w.lifecycle with
        | none => Host.refuse owner "no callback lifecycle functions installed" this args
        | some pair =>
          if Host.maxArguments < args.length then
            Host.refuse owner "too many arguments for a host callback" this args
          else
            host.wrapper pair target context (.ofValue this) (args.map .ofValue) >>=
              Act.consumeOutcome : Act σ Outcome).run (answer invoke) ⟨w, g⟩ := rfl
  rw [hasked, World.receiver]
  cases w.lifecycle with
  | none => rfl
  | some pair =>
    dsimp only
    split <;> rfl

/-! ## From beginning to end -/

namespace World

variable {w : World} {k : HostCall}

/-- Handing over the arguments makes a handle for each that needs one, and nothing else. -/
theorem trades_handOver (w : World) (k : HostCall) :
    w.Trades (w.handOver k) k.anchor.owner (Purse.handlesOf (w.handed k)).length 0 :=
  trades_encodeAll w k.anchor.owner (k.this :: k.args)

theorem yieldsAll_handOver (w : World) (k : HostCall) :
    w.purse.YieldsAll k.anchor.owner (w.handed k) (w.handOver k).purse :=
  yields_encodeAll w k.anchor.owner (k.this :: k.args)

theorem length_encodeAll (w : World) (i : InstanceId) (vs : List Script.Value) :
    (w.encodeAll i vs).1.length = vs.length := by
  induction vs generalizing w with
  | nil => rfl
  | cons v vs ih => exact congrArg (· + 1) (ih _)

/-- An error and its handle are new, and what there was before stays. -/
theorem trades_withError (w : World) (i : InstanceId) (realm : Ref) (message : String) :
    { w with heap := (w.heap.addError realm message).1 }.Trades (w.withError i realm message)
      i 1 0 :=
  trades_newHandle _ _ _

theorem cell?_withError (w : World) (i : InstanceId) (realm : Ref) (message : String) :
    (w.withError i realm message).cell? ⟨w.handles.size⟩ =
      some ⟨.object (w.heap.addError realm message).2, i⟩ :=
  cell?_newHandle _ _ _

theorem cell?_withError_of_ne {h : Handle} (hne : h ≠ ⟨w.handles.size⟩) (i : InstanceId)
    (realm : Ref) (message : String) : (w.withError i realm message).cell? h = w.cell? h := by
  rw [← cell?_purse, withError, purse_newHandle]
  exact Purse.cell?_make_of_ne _ _ hne

/-- Where nothing waits for a callback to return, its return restores what was lent. -/
theorem leave_of_settled {a : Anchor} (h : ∀ c, (a, c) ∉ w.orphans) (before : Option Activation) :
    w.leave a before = { w with inFlight := w.inFlight.tail }.updateInstance a.owner fun x =>
      { x with lent := before } := by
  obtain ⟨-, hw⟩ | ⟨-, -, hw⟩ | ⟨c, -, hmem, -⟩ := dropOrphan_cases
    ({ w with inFlight := w.inFlight.tail }.updateInstance a.owner fun x =>
      { x with lent := before }) a
  · exact hw
  · exact hw
  · exact absurd hmem (h c)

/-- **What a callback trades** while it runs has been traded when it has returned. -/
theorem Trades.returned {v : Invocation} {heap : Script.Heap}
    (h : { w.enter v with heap := heap }.Trades w' v.anchor.owner made back)
    (hsettled : ∀ c, (v.anchor, c) ∉ w.orphans) :
    { w with heap := heap }.Trades (w'.leave v.anchor (w.lentBy v.anchor.owner)) v.anchor.owner
      made back := by
  obtain ⟨xs, cs, hrest⟩ := h.rest
  have hleave := leave_of_settled (w := w') (by rw [hrest]; exact hsettled)
    (w.lentBy v.anchor.owner)
  refine ⟨fun j => ?_, (w'.leave v.anchor (w.lentBy v.anchor.owner)).instances, cs, ?_⟩
  swap
  · rw [hleave, hrest]
    rfl
  have hentered : { w.enter v with heap := heap }.instance? j = (w.enter v).instance? j := rfl
  have htail : { w' with inFlight := w'.inFlight.tail }.instance? j = w'.instance? j := rfl
  have hstart : { w with inFlight := v :: w.inFlight }.instance? j = w.instance? j := rfl
  rw [hleave, instance?_updateInstance, htail, h.instances, hentered, enter,
    instance?_updateInstance, hstart]
  show _ = (w.instance? j).map _
  by_cases hj : v.anchor.owner = j
  · subst hj
    rw [← instance?_bind_lent]
    cases w.instance? v.anchor.owner <;> simp [Instance.trade]
  · simp [hj]

/-- It is the same for every heap. -/
theorem Trades.withHeap (h : w.Trades w' i made back) (heap : Script.Heap) :
    { w with heap := heap }.Trades { w' with heap := heap } i made back := by
  obtain ⟨xs, cs, hrest⟩ := h.rest
  exact ⟨h.instances, xs, cs, by rw [hrest]⟩

/-- The pair that is installed when a callback begins is the one that was when it was called. -/
theorem lifecycle_atEntry (w : World) (k : HostCall) : (w.atEntry k).lifecycle = w.lifecycle := by
  obtain ⟨xs, cs, hrest⟩ := (trades_handOver w k).rest
  have hlifecycle : (w.handOver k).lifecycle = w.lifecycle := by rw [hrest]
  exact hlifecycle

/-- The handles to what a callback was handed are new and out at the expense of its instance. -/
theorem fresh_handed (w : World) (k : HostCall) : (Purse.handlesOf (w.handed k)).Nodup
    ∧ ∀ h ∈ Purse.handlesOf (w.handed k), w.cell? h = none ∧ (w.atEntry k).IsOutOf k.anchor.owner h
      ∧ h.id < (w.atEntry k).handles.size := by
  have hyields := yieldsAll_handOver w k
  rw [← purse_enter (w.handOver k) ⟨k.anchor, k.activation⟩] at hyields
  obtain ⟨hn, hfresh⟩ := hyields.fresh
  refine ⟨hn, fun h hmem => ?_⟩
  obtain ⟨hle, v, hv⟩ := hfresh h hmem
  refine ⟨Purse.cell?_eq_none_of_le (p := w.purse) hle, ?_, Purse.lt_of_cell? (by rw [hv]; nofun)⟩
  exact congrArg (Option.map (·.owner)) hv

/-- A handle that a call of the host has made is one of those that it was handed. -/
theorem cell?_atEntry {h : Handle} (hmem : h ∉ Purse.handlesOf (w.handed k)) :
    (w.atEntry k).cell? h = w.cell? h := by
  have hyields := yieldsAll_handOver w k
  rw [← purse_enter (w.handOver k) ⟨k.anchor, k.activation⟩] at hyields
  by_cases hlt : h.id < w.handles.size
  · exact hyields.cell? hlt
  · have hnone : w.cell? h = none :=
      Purse.cell?_eq_none_of_le (p := w.purse) (Nat.le_of_not_lt hlt)
    refine Eq.trans ?_ hnone.symm
    exact Decidable.byContradiction fun hq => hmem (hyields.new hq hnone)

/-- The next handle is none of them. -/
theorem next_not_mem_handed (w : World) (k : HostCall) :
    ⟨(w.atEntry k).handles.size⟩ ∉ Purse.handlesOf (w.handed k) := fun hmem =>
  Nat.lt_irrefl _ ((fresh_handed w k).2 _ hmem).2.2

theorem cell?_next (w : World) (k : HostCall) :
    w.cell? ⟨(w.atEntry k).handles.size⟩ = none := by
  rw [← cell?_atEntry (next_not_mem_handed w k)]
  exact Purse.cell?_eq_none_of_le (p := (w.atEntry k).purse) (Nat.le_refl _)

end World

/-- What is left of a call that was refused with some message, and thrown. -/
structure Refused (w : World) (k : HostCall) (message : String) (error : Ref) (t : World) :
    Prop where
  /-- What is thrown is a new error object of the realm of the function that was called. -/
  thrown : (t.heap, error) = w.heap.addError k.activation.realm message
  /-- The code was handed `this` and the arguments, and what has handles among them has new ones. -/
  handed : (w.handed k).length = k.args.length + 1
    ∧ ∀ h ∈ Purse.handlesOf (w.handed k), w.cell? h = none ∧ (w.atEntry k).IsOutOf k.anchor.owner h
  /-- Each of them is given back, and so is the handle of the error. -/
  trades : { w with heap := t.heap }.Trades t k.anchor.owner
    ((Purse.handlesOf (w.handed k)).length + 1) ((Purse.handlesOf (w.handed k)).length + 1)
  /-- Every handle refers to what it referred to, or to nothing as before. -/
  cell : ∀ h, t.cell? h = w.cell? h

/-- What is in the table does not wait for a call to return. -/
theorem Account.not_waiting {made : InstanceId → List Callback} {w : World} {a : Anchor}
    {cb : Callback} (h : Account made w) (hcb : w.callbackOf a = some cb) (c : Callback) :
    (a, c) ∉ w.orphans := by
  intro horphan
  have hentered := World.mem_entered_of_callbackOf hcb
  have hreg := h.registered_of_entered hentered
  obtain rfl := (h.registered_of_orphan horphan).unique hreg
  have hone := h.sightings_of_registered hreg
  have hin := List.count_pos_iff.mpr hentered
  have hwaits := List.count_pos_iff.mpr horphan
  simp only [World.sightings] at hone
  omega

section Refused

variable {w : World} {made : InstanceId → List Callback} {k : HostCall} {target : InstanceId}
  {context : UInt64} {message : String} {this : Value} {args : List Value}

/-- The handles that a refusal gives back: those of the arguments, that of `this`, and that of the
error. -/
def World.returns (w : World) (k : HostCall) (this : Value) (args : List Value) : List Handle :=
  Purse.handlesOf (args ++ [this]) ++ [⟨(w.atEntry k).handles.size⟩]

/-- The world that a refused call leaves. -/
def World.refused (w : World) (k : HostCall) (message : String) (this : Value)
    (args : List Value) : World :=
  (((w.atEntry k).withError k.anchor.owner k.activation.realm message).releaseAll
    (w.returns k this args)).leave k.anchor (w.lentBy k.anchor.owner)

/-- They are what was handed over and the error, each of them once. -/
theorem World.perm_returns (hhanded : w.handed k = this :: args) : (w.returns k this args).Perm
    (Purse.handlesOf (w.handed k) ++ [⟨(w.atEntry k).handles.size⟩]) := by
  have hperm : (args ++ [this]).Perm (this :: args) := List.perm_append_comm
  rw [returns, hhanded]
  exact (hperm.filterMap _).append_right _

theorem World.nodup_returns (hhanded : w.handed k = this :: args) :
    (w.returns k this args).Nodup := by
  refine (perm_returns hhanded).nodup_iff.mpr (List.nodup_append.mpr
    ⟨(fresh_handed w k).1, List.nodup_singleton _, fun h hmem h' hmem' heq => ?_⟩)
  rw [heq, List.mem_singleton.mp hmem'] at hmem
  exact next_not_mem_handed w k hmem

/-- All of them are out at the expense of the instance when they are given back. -/
theorem World.isOutOf_of_mem_returns (hhanded : w.handed k = this :: args) (message : String)
    {h : Handle} (hmem : h ∈ w.returns k this args) :
    ((w.atEntry k).withError k.anchor.owner k.activation.realm message).IsOutOf
      k.anchor.owner h := by
  rw [IsOutOf]
  rcases List.mem_append.mp ((perm_returns hhanded).mem_iff.mp hmem) with hmem | hmem
  · rw [cell?_withError_of_ne fun heq => next_not_mem_handed w k (heq ▸ hmem)]
    exact ((fresh_handed w k).2 h hmem).2.1
  · rw [List.mem_singleton.mp hmem, cell?_withError]
    rfl

/-- What is left of the call. -/
theorem World.refused_refused (hw : Account made w) {cb : Callback}
    (hcb : w.callbackOf k.anchor = some cb) (hhanded : w.handed k = this :: args)
    (message : String) : Refused w k message (w.heap.addError k.activation.realm message).2
      (w.refused k message this args) := by
  have hentry : (w.atEntry k).heap = w.heap := heap_atEntry w k
  have hsettled : ∀ c, (k.anchor, c) ∉ (w.handOver k).orphans := by
    have horphans : (w.handOver k).orphans = w.orphans :=
      congrArg Calls.orphans (calls_handOver w k)
    rw [horphans]
    exact hw.not_waiting hcb
  have hback : (w.returns k this args).length = (Purse.handlesOf (w.handed k)).length + 1 :=
    (perm_returns hhanded).length_eq.trans List.length_append
  have hinside := ((trades_withError (w.atEntry k) k.anchor.owner k.activation.realm message).trans
    (trades_releaseAll (fun h => isOutOf_of_mem_returns hhanded message)
      (nodup_returns hhanded))).returned (v := ⟨k.anchor, k.activation⟩) hsettled
  have htrades := ((trades_handOver w k).withHeap _).trans hinside
  rw [lentBy_congr (calls_handOver w k), hentry, hback, Nat.add_zero, Nat.zero_add,
    Nat.zero_add] at htrades
  have hheap : (w.refused k message this args).heap =
      (w.heap.addError k.activation.realm message).1 := by
    obtain ⟨xs, cs, hrest⟩ := htrades.rest
    exact congrArg World.heap hrest
  refine ⟨?_, ⟨?_, fun h hmem => ?_⟩, ?_, fun h => ?_⟩
  · rw [hheap]
  · exact length_encodeAll w k.anchor.owner (k.this :: k.args)
  · obtain ⟨hnone, hout, -⟩ := (fresh_handed w k).2 h hmem
    exact ⟨hnone, hout⟩
  · rw [hheap]
    exact htrades
  · have hleft : (w.refused k message this args).cell? h = _ :=
      (congrArg (Purse.cell? · h) (purse_leave _ _ _)).trans (cell?_releaseAll _ _ _)
    have hreturns := (perm_returns hhanded).mem_iff (a := h)
    rw [hleft]
    split
    · next hmem =>
      rcases List.mem_append.mp (hreturns.mp hmem) with hmem | hmem
      · exact ((fresh_handed w k).2 h hmem).1.symm
      · rw [List.mem_singleton.mp hmem]
        exact (cell?_next w k).symm
    · next hmem =>
      obtain ⟨hmem, hne⟩ := not_or.mp (List.mem_append.not.mp (hreturns.not.mp hmem))
      rw [cell?_withError_of_ne fun heq => hne (List.mem_singleton.mpr heq), cell?_atEntry hmem]

end Refused

/-- **The run of a foreign callback's code** on what it was handed. -/
theorem Host.code_foreign (host : Host σ) (n : Nat) (g : σ) {w : World} {k : HostCall}
    {this : Value} {args : List Value} (hhanded : w.handed k = this :: args) (target : InstanceId)
    (context : UInt64) : host.code n k (.foreign target context) ⟨w, g⟩ =
      match w.receiver k.args.length with
      | .error message => (Host.refuse k.anchor.owner message this args).run
          (answer (invokeAt host n)) ⟨w.atEntry k, g⟩
      | .ok pair => (host.wrapper pair target context (.ofValue this) (args.map .ofValue) >>=
          Act.consumeOutcome : Act σ Outcome).run (answer (invokeAt host n)) ⟨w.atEntry k, g⟩ := by
  have hall := World.length_encodeAll w k.anchor.owner (k.this :: k.args)
  have hlength : args.length = k.args.length :=
    Nat.succ.inj ((congrArg List.length hhanded).symm.trans hall)
  rw [Host.code, hhanded]
  refine (run_callForeign host _ g (w.atEntry k) k.anchor.owner target context this args).trans ?_
  rw [World.receiver, World.receiver, World.lifecycle_atEntry, hlength]

/-- **A refused call** of a live foreign callback throws, gives back what it was handed, and does
nothing else. The host has no part in it. -/
theorem invokeAt_refused {w : World} {made : InstanceId → List Callback} {k : HostCall}
    {target : InstanceId} {context : UInt64} {message : String} (hw : Account made w)
    (hcb : w.callbackOf k.anchor = some (.foreign target context))
    (h : w.receiver k.args.length = .error message) : ∃ error t, Refused w k message error t
      ∧ ∀ {σ : Type} (host : Host σ) (n : Nat) (g : σ),
        invokeAt host (n + 1) k ⟨w, g⟩ = .ok (.thrown (.object error), ⟨t, g⟩) := by
  obtain ⟨this, args, hhanded⟩ : ∃ this args, w.handed k = this :: args := ⟨_, _, rfl⟩
  have halive : (w.handOver k).isAlive k.anchor.owner = true := by
    rw [World.isAlive_congr (World.calls_handOver w k)]
    exact World.isAlive_of_callbackOf (by rw [hcb]; rfl)
  have hcontext : (w.atEntry k).context? k.anchor.owner = some k.activation :=
    World.context?_enter (v := ⟨k.anchor, k.activation⟩) halive
  -- The handle of the error is given back last, when its value is taken.
  let v : {σ : Type} → σ → Visit σ := fun g =>
    ⟨k, .foreign target context, ⟨w, g⟩,
      .exception (.composite .object ⟨(w.atEntry k).handles.size⟩),
      ⟨((w.atEntry k).withError k.anchor.owner k.activation.realm message).releaseAll
        (Purse.handlesOf (args ++ [this])), g⟩⟩
  refine ⟨_, _, World.refused_refused hw hcb hhanded message, fun host n g => ?_⟩
  have hvalue : (v g).value = .object (w.heap.addError k.activation.realm message).2 := by
    have hnot : ⟨(w.atEntry k).handles.size⟩ ∉ Purse.handlesOf (args ++ [this]) := fun hmem =>
      (List.nodup_append.mp (World.nodup_returns hhanded)).2.2 _ hmem _ (List.mem_singleton_self _)
        rfl
    show World.referent _ _ = _
    rw [World.referent, World.cell?_releaseAll, if_neg hnot, World.cell?_withError,
      World.heap_atEntry]
    rfl
  have hresume : (v g).resume = ⟨w.refused k message this args, g⟩ := by
    rw [World.refused, World.returns, World.releaseAll, List.foldl_append]
    rfl
  rw [invokeAt_succ hcb, host.code_foreign n g hhanded, h]
  dsimp only
  rw [run_refuse _ g hcontext (World.usesOwn_enter halive)]
  dsimp only
  show Except.ok ((v g).result, (v g).resume) = _
  rw [hresume, Visit.result, hvalue]
  rfl

end ScriptBoundary.Boundary
