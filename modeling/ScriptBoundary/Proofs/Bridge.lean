import ScriptBoundary.Proofs.Steps
import ScriptBoundary.Proofs.Whereabouts

/-!
# Calling a callback

A callback is called through its function object, which is like any other function to a script. A
script calls it by `Machine.call`, whatever the library of built-in functions and however deep it is
nested. The host calls it by `Request.call`, which is an operation on some instance, not necessarily
the one that the callback was registered on; what it passes and what it gets has gone through
`decode` and `encode`, so it is `Normal` and not the same.

The limits that apply are those of the context in which the call is made. `Activation.HasRoom` is
that neither of them has been reached.

## Main results

* `answer_call_live`: the call of a callback by the host, as one equation
* `isTransparent_call`: that call, through any handle and instance
* `bridge_is_transparent`: the call of a callback, by a script or by the host
-/

namespace ScriptBoundary.Boundary

open Script (Activation Anchor Builtins Comp Completion HostCall Machine Program Ref)

variable {σ α : Type}

/-! ## The host calls a callback -/

/-- What the host's code returned is handed out to the caller, if that is an operation. -/
theorem Visit.normal_encode (v : Visit σ) (own : Bool) (i : InstanceId) :
    v.after.world.Normal v.outcome.value ((v.resume.world.encode i v.value).2.relinquish own i) i
      (v.resume.world.encode i v.value).1 := by
  have hstore := World.SameStore.relinquish (v.resume.world.encode i v.value).2 own i
  have hheap : ((v.resume.world.encode i v.value).2.relinquish own i).heap = v.resume.world.heap :=
    hstore.heap.trans (World.heap_congr (World.setting_encode _ _ _))
  refine World.normal_of_means (x := v.value) ?_ ?_
  · rw [hheap]
    exact v.means_value
  · refine (World.presents_encode v.resume.world i v.value).congr hstore.heap fun hd c hc => ?_
    rwa [hstore.cell?]

section Host

variable {host : Host σ} {n : Nat} {k : HostCall} {c : Callback} {s t : State σ}

/-- What comes of a call of a callback by the host, in the context that it gets: the arguments are
taken, the callback's code runs once on what is handed over for them, and what it returns is taken
and handed out as the answer. What has been taken and handed out again is `Normal`. -/
def IsTransparent (host : Host σ) (n : Nat) (s : State σ) (j : InstanceId) (act : Activation)
    (h : Handle) (this : Value) (args : List Value) (a : Anchor) (c : Callback) : Prop :=
  ∃ k before, k.anchor = a ∧ before.host = s.host
    ∧ (s.world.occupy j).decodeAll act.realm (this :: args) = (k.this :: k.args, before.world)
    ∧ List.Forall₂ (fun u u' => s.world.Normal u (before.world.atEntry k) a.owner u')
        (this :: args) (before.world.handed k)
    ∧ match host.code n k c before with
      | .error e => answer (invokeAt host (n + 1)) (.call j h this args) s = .error e
      | .ok (o, t) =>
        let v : Visit σ := ⟨k, c, before, o, t⟩
        let told := v.resume.world.encode j v.value
        let after := told.2.relinquish (s.world.usesOwn j) j
        answer (invokeAt host (n + 1)) (.call j h this args) s =
            .ok (⟨told.1, o.isException⟩, ⟨after, t.host⟩)
          ∧ t.world.Normal o.value after j told.1

/-- What an operation hands out when a call has ended. -/
theorem conclude_result (invoke : Invoke σ) (i : InstanceId) (act : Activation) (v : Visit σ)
    (s : State σ) : conclude invoke i act v.result s =
      .ok (⟨(s.world.encode i v.value).1, v.outcome.isException⟩,
        { s with world := (s.world.encode i v.value).2 }) := by
  rw [Visit.result]
  cases v.outcome.isException <;> rfl

/-- The operation that calls a callback: its code runs once, and what it returned is handed out. -/
theorem operateIn_call (host : Host σ) (n : Nat) (g : σ) (j : InstanceId) {u taken : World}
    {a : Anchor} {f : Ref} {act : Activation} {args : List Value} {x : Script.Value}
    {xs : List Script.Value}
    (hargs : u.decodeAll act.realm args = (x :: xs, taken)) (hf : IsFunctionOf taken.heap a f)
    (hcb : taken.callbackOf a = some c) (hroom : act.HasRoom) : ∃ act',
    operateIn (invokeAt host (n + 1)) j args
        (fun vs => Operation.call (.object f) (vs.headD .undefined) vs.tail) act ⟨u, g⟩ =
      match host.code n ⟨a, x, xs, act'⟩ c ⟨taken, g⟩ with
      | .error e => .error e
      | .ok (o, t) =>
        let v : Visit σ := ⟨⟨a, x, xs, act'⟩, c, ⟨taken, g⟩, o, t⟩
        .ok (⟨(v.resume.world.encode j v.value).1, o.isException⟩,
          { v.resume with world := (v.resume.world.encode j v.value).2 }) := by
  obtain ⟨-, ha, realm, hnature⟩ := hf
  obtain ⟨held, hsteps⟩ :=
    steps_operationCall host (n + 1) (s := ⟨taken, g⟩) hnature ha hroom x xs
  let act' : Activation := { act with realm, held }
  have hrun : runIn (invokeAt host (n + 1)) act (Operation.call (.object f) x xs) ⟨taken, g⟩ =
      runProgram (invokeAt host (n + 1)) (.call ⟨a, x, xs, act'⟩ .done) ⟨taken, g⟩ :=
    hsteps.runProgram_eq
  refine ⟨act', ?_⟩
  rw [operateIn_apply, hargs]
  dsimp only [List.headD_cons, List.tail_cons]
  rw [hrun, runProgram_call, invokeAt_succ hcb]
  cases host.code n ⟨a, x, xs, act'⟩ c ⟨taken, g⟩ with
  | error e => rfl
  | ok q =>
    obtain ⟨o, t⟩ := q
    dsimp only
    rw [runProgram]
    dsimp only
    rw [conclude_result]

/-- **A call of a live callback by the host**, through a reference to its function object and on any
instance: the arguments are taken, the callback's code runs once, and what it returned is taken and
handed out. -/
theorem answer_call_live (host : Host σ) (n : Nat) (g : σ) {w : World} {a : Anchor} {f : Ref}
    {h : Handle} {j : InstanceId} {act : Activation} (this : Value) (args : List Value)
    (hcb : w.callbackOf a = some c) (hf : IsFunctionOf w.heap a f) (href : w.referent h = .object f)
    (hact : w.context? j = some act) (hroom : act.HasRoom) : ∃ k before, k.anchor = a
      ∧ before.host = g
      ∧ (w.occupy j).decodeAll act.realm (this :: args) = (k.this :: k.args, before.world)
      ∧ answer (invokeAt host (n + 1)) (.call j h this args) ⟨w, g⟩ =
        match host.code n k c before with
        | .error e => .error e
        | .ok (o, t) =>
          let v : Visit σ := ⟨k, c, before, o, t⟩
          let told := v.resume.world.encode j v.value
          .ok (⟨told.1, o.isException⟩, ⟨told.2.relinquish (w.usesOwn j) j, t.host⟩) := by
  let u := w.occupy j
  have hu : w.SameStore u := .occupy w j
  have hcalls := World.calls_decodeAll u act.realm (this :: args)
  have hheap := World.evolvesHeap_decodeAll u act.realm (this :: args)
  obtain ⟨x, xs, taken, hargs⟩ : ∃ x xs taken,
      u.decodeAll act.realm (this :: args) = (x :: xs, taken) := ⟨_, _, _, rfl⟩
  rw [hargs] at hcalls hheap
  -- The function object is still what it was when the arguments have been taken.
  have hfunction : IsFunctionOf taken.heap a f := hf.evolves (hu.heap ▸ hheap)
  have hfound : taken.callbackOf a = some c := by
    rw [World.callbackOf_congr hcalls, hu.callbackOf]
    exact hcb
  obtain ⟨act', hoperate⟩ := operateIn_call host n g j hargs hfunction hfound hroom
  have hanswer : answer (invokeAt host (n + 1)) (.call j h this args) ⟨w, g⟩ = _ :=
    (answer_eq_inContext rfl rfl).trans (inContext_of_context (s := ⟨w, g⟩) hact _)
  rw [href, hoperate] at hanswer
  refine ⟨⟨a, x, xs, act'⟩, ⟨taken, g⟩, rfl, rfl, hargs, ?_⟩
  cases hcode : host.code n ⟨a, x, xs, act'⟩ c ⟨taken, g⟩ with
  | error e =>
    rw [hcode] at hanswer
    exact hanswer
  | ok q =>
    obtain ⟨o, t⟩ := q
    rw [hcode] at hanswer
    exact hanswer

/-- **A call of a callback by the host** is transparent, through whatever handle and instance. -/
theorem isTransparent_call (host : Host σ) (n : Nat) (g : σ) {w : World}
    {made : InstanceId → List Callback} {i j owner : InstanceId} {id : Nat} {r : Registration}
    {h : Handle} {act : Activation} {this : Value} {args : List Value} (hw : Account made w)
    (hp : w.Placed) (hr : (id, r) ∈ (w.table i).entries)
    (hh : w.cell? h = some ⟨.object r.function, owner⟩) (hact : w.context? j = some act)
    (hroom : act.HasRoom) (hn : (Purse.handlesOf (this :: args)).Nodup) :
    IsTransparent host n ⟨w, g⟩ j act h this args ⟨i, id⟩ r.callback := by
  have hvalue : w.referent h = .object r.function := by
    rw [World.referent, hh]
    rfl
  obtain ⟨k, before, hk, hbefore, hargs, hanswer⟩ := answer_call_live host n g this args
    (hw.callbackOf_of_mem (a := ⟨i, id⟩) hr) (hp.function i (id, r) hr) hvalue hact hroom
  have hmeans := World.meansAll_decodeAll (w.occupy j) act.realm hn
  rw [hargs] at hmeans
  refine ⟨k, before, hk, hbefore, hargs, ?_, ?_⟩
  · have hentry := World.heap_atEntry before.world k
    have hnormal := World.normalAll_of_meansAll (hentry ▸ hmeans) (World.presentsAll_handed _ _)
    rw [hk] at hnormal
    exact hnormal.imp fun v v' hv => hv.of_referent (World.SameStore.occupy w j).referent
  · cases hcode : host.code n k r.callback before with
    | error e =>
      rw [hcode] at hanswer
      exact hanswer
    | ok q =>
      obtain ⟨o, t⟩ := q
      rw [hcode] at hanswer
      exact ⟨hanswer, Visit.normal_encode ⟨k, r.callback, before, o, t⟩ (w.usesOwn j) j⟩

end Host

/-! ## Registering a callback and calling it -/

/-- **What a registration makes**: a function object, an entry that has its address, and a
handle. -/
theorem World.register_spec {w : World} {i : InstanceId} (halive : w.isAlive i = true) (realm : Ref)
    (c : Callback) : (w.register i realm c).1 = .composite .function ⟨w.handles.size⟩
      ∧ (w.register i realm c).2.cell? ⟨w.handles.size⟩ = some ⟨.object w.heap.cells.size, i⟩
      ∧ ((w.table i).nextId, ⟨c, w.heap.cells.size⟩) ∈
        ((w.register i realm c).2.table i).entries := by
  obtain ⟨x, hx⟩ := Option.isSome_iff_exists.mp (hasInstance_of_isAlive halive)
  refine ⟨(purse_register hx realm c).1, ?_, ?_⟩
  · rw [register, hx]
    exact cell?_newHandle _ i _
  · rw [table_congr (calls_register hx realm c), table_enlisted halive, if_pos rfl]
    exact List.mem_append_right _ List.mem_cons_self

theorem World.isAlive_updateTable (w : World) (i j : InstanceId)
    (f : CallbackTable → CallbackTable) : (w.updateTable i f).isAlive j = w.isAlive j :=
  isAlive_updateInstance_of_eq (f := fun x => { x with table := f x.table }) (fun _ => rfl) j

theorem World.lentBy_updateTable (w : World) (i j : InstanceId)
    (f : CallbackTable → CallbackTable) : (w.updateTable i f).lentBy j = w.lentBy j :=
  lentBy_updateInstance (f := fun x => { x with table := f x.table }) (fun _ => rfl) j

/-- A registration succeeds wherever an operation can, and another operation can be next. -/
theorem answer_register (invoke : Invoke σ) (g : σ) (c : Callback) {w : World} {i : InstanceId}
    (hcontext : (w.context? i).isSome) : ∃ h id f t,
      answer invoke (.register i c) ⟨w, g⟩ = .ok (.composite .function h, ⟨t, g⟩)
      ∧ t.cell? h = some ⟨.object f, i⟩ ∧ (id, ⟨c, f⟩) ∈ (t.table i).entries
      ∧ (t.context? i).isSome := by
  obtain ⟨act, hact⟩ := Option.isSome_iff_exists.mp hcontext
  have hstore := World.SameStore.occupy w i
  have halive : (w.occupy i).isAlive i = true :=
    (hstore.isAlive i).trans (World.context?_isSome_iff.mp hcontext).1
  obtain ⟨hvalue, hcell, hentry⟩ := World.register_spec halive act.realm c
  have hended := World.SameStore.relinquish ((w.occupy i).register i act.realm c).2 (w.usesOwn i) i
  obtain ⟨x, hx⟩ := Option.isSome_iff_exists.mp (World.hasInstance_of_isAlive halive)
  have hcalls := World.calls_register hx act.realm c
  have hlent : (w.occupy i).lentBy i = w.lentBy i := by
    rw [World.occupy]
    split
    · exact World.lentBy_borrow w i i
    · rfl
  refine ⟨_, _, _, _, ?_, (hended.cell? _).trans hcell, hended.table i ▸ hentry, ?_⟩
  · rw [answer_eq_inContext (r := .register i c) rfl rfl,
      inContext_of_context (s := ⟨w, g⟩) hact, Run.alter_apply, ← hvalue]
  · refine World.context?_relinquish ?_ ?_
    · rw [World.isAlive_congr hcalls, World.isAlive_updateTable, halive]
    · rw [World.lentBy_congr hcalls, World.lentBy_updateTable, hlent]

/-! ## All of it -/

/-- What is so of the callbacks of a scene, whatever the host's code does and however many levels of
nesting are left. -/
structure Bridges (c : Scene) : Prop where
  /-- A script that calls the function object of a live registration has the callback's code run
  once, on the instance that it was registered on, and goes on with what it returned. -/
  script : ∀ {σ : Type} (host : Host σ) (n : Nat) (g : σ) (library : Builtins) (depth : Nat)
    (i : InstanceId) (id : Nat) (r : Registration) (this : Script.Value) (args : List Script.Value)
    (act : Activation) (next : Completion Script.Value → Program),
    (id, r) ∈ (c.world.table i).entries → act.HasRoom →
    ∃ k : HostCall, k.anchor = ⟨i, id⟩ ∧ k.this = this ∧ k.args = args
      ∧ runProgram (invokeAt host (n + 1))
          (Machine.ofDepth library (depth + 1) (.call (.object r.function) this args) act next)
          ⟨c.world, g⟩ = match host.code n k r.callback ⟨c.world, g⟩ with
        | .error e => .error e
        | .ok (o, t) =>
          let v : Visit σ := ⟨k, r.callback, ⟨c.world, g⟩, o, t⟩
          runProgram (invokeAt host (n + 1)) (next v.result) v.resume
  /-- What the code is given presents `this` and the arguments, one for one and in their order. -/
  handed : ∀ k : HostCall, List.Forall₂ ((c.world.atEntry k).Presents k.anchor.owner)
    (k.this :: k.args) (c.world.handed k)
  /-- What the script gets is what the returned value means. -/
  returned : ∀ {σ : Type} (v : Visit σ),
    v.after.world.Means v.outcome.value v.resume.world.heap v.value
  /-- The host can call it through every handle of the function object, and on every instance that
  can give it a context. -/
  host : ∀ {σ : Type} (host : Host σ) (n : Nat) (g : σ) (i : InstanceId) (id : Nat)
    (r : Registration) (h : Handle) (owner j : InstanceId) (act : Activation) (this : Value)
    (args : List Value),
    (id, r) ∈ (c.world.table i).entries → c.world.cell? h = some ⟨.object r.function, owner⟩ →
    c.world.context? j = some act → act.HasRoom → (Purse.handlesOf (this :: args)).Nodup →
    IsTransparent host n ⟨c.world, g⟩ j act h this args ⟨i, id⟩ r.callback
  /-- Where it is the host's turn, it can register a callback and call it. -/
  registered : ∀ {σ : Type} (host : Host σ) (n : Nat) (g : σ) (i : InstanceId) (cb : Callback),
    isHostTurn c.stack = true → (c.world.context? i).isSome →
    ∃ h id w, answer (invokeAt host (n + 1)) (.register i cb) ⟨c.world, g⟩ =
        .ok (.composite .function h, ⟨w, g⟩)
      ∧ (w.context? i).isSome
      ∧ ∀ j act this args, w.context? j = some act → act.HasRoom →
        (Purse.handlesOf (this :: args)).Nodup →
        IsTransparent host n ⟨w, g⟩ j act h this args ⟨i, id⟩ cb

/-- A script calls the function object of a live registration. -/
theorem runProgram_ofDepth_call {w : World} {made : InstanceId → List Callback} {i : InstanceId}
    {id : Nat} {r : Registration} {act : Activation} (hw : Account made w) (hp : w.Placed)
    (hr : (id, r) ∈ (w.table i).entries) (hroom : act.HasRoom) (host : Host σ) (n : Nat) (g : σ)
    (library : Builtins) (depth : Nat) (this : Script.Value) (args : List Script.Value)
    (next : Completion Script.Value → Program) :
    ∃ k : HostCall, k.anchor = ⟨i, id⟩ ∧ k.this = this ∧ k.args = args
      ∧ runProgram (invokeAt host (n + 1))
          (Machine.ofDepth library (depth + 1) (.call (.object r.function) this args) act next)
          ⟨w, g⟩ = match host.code n k r.callback ⟨w, g⟩ with
        | .error e => .error e
        | .ok (o, t) =>
          let v : Visit σ := ⟨k, r.callback, ⟨w, g⟩, o, t⟩
          runProgram (invokeAt host (n + 1)) (next v.result) v.resume := by
  obtain ⟨k, hk, hthis, hargs, hrun⟩ := runProgram_callTask (s := ⟨w, g⟩) host (n + 1) library depth
    (hp.function i (id, r) hr) hroom this args next
  have hcb : w.callbackOf k.anchor = some r.callback := hk ▸ hw.callbackOf_of_mem (a := ⟨i, id⟩) hr
  refine ⟨k, hk, hthis, hargs, ?_⟩
  rw [hrun, invokeAt_succ hcb]
  cases host.code n k r.callback ⟨w, g⟩ <;> rfl

/-- **The bridge is transparent** wherever the registrations are accounted for and in place. -/
theorem Scene.bridges_of_run {p : Platform} {ms : List Move} {c : Scene}
    (hrun : (Scene.start p).run ms = some c) : Bridges c := by
  have hsound : ∀ {ms c}, (Scene.start p).run ms = some c → Account (registrations ms) c.world :=
    fun h => (Scene.sound_run h).account
  constructor
  case script =>
    intro σ host n g library depth i id r this args act next hr hroom
    exact runProgram_ofDepth_call (hsound hrun) (Scene.placed_run hrun) hr hroom host n g library
      depth this args next
  case handed => exact World.presentsAll_handed c.world
  case returned => exact Visit.means_value
  case host =>
    intro σ host n g i id r h owner j act this args hr hh hact hroom hn
    exact isTransparent_call host n g (hsound hrun) (Scene.placed_run hrun) hr hh hact hroom hn
  case registered =>
    intro σ host n g i cb hst hcontext
    obtain ⟨h, id, f, w, hanswer, hh, hr, hnext⟩ :=
      answer_register (invokeAt host (n + 1)) g cb hcontext
    refine ⟨h, id, w, hanswer, hnext, fun j act this args hact hroom hn => ?_⟩
    -- The registration is a run of the host's code, so moves lead to the world after it.
    have hask : (Act.request (.register i cb)).run (answer (invokeAt host (n + 1)))
        ⟨c.world, g⟩ = .ok (.composite .function h, ⟨w, g⟩) := by
      rw [Act.request, Act.run_ask, hanswer]
      rfl
    obtain ⟨ns, hns⟩ := (Scene.follows c).code host (n + 1) _ g _ _ hst hask
    have hafter := Scene.run_trans hrun hns
    exact isTransparent_call host n g (hsound hafter) (Scene.placed_run hafter) hr hh hact hroom hn

/-- **The bridge is transparent.** In every scene that moves lead to, a callback that is called is
run once, on its own instance and on what was passed, and its caller gets what it returned. What
the interpreter does, at any depth, is done by moves. -/
theorem bridge_is_transparent (p : Platform) :
    (∀ ms c, (Scene.start p).run ms = some c → Bridges c) ∧ ∀ c : Scene, c.Follows :=
  ⟨fun _ _ h => Scene.bridges_of_run h, Scene.follows⟩

/-- A host whose callbacks throw what they are called on. -/
def Host.thrower : Host Unit where
  native _ _ this _ := pure (.exception this)
  wrapper _ _ _ this _ := pure ⟨this, 1⟩

/-- A callback throws the object that it is called on, and the call of it by the host is an
exception with a handle of the same object. -/
theorem thrown_through : ∃ c act, (Scene.start .ready).run
      [.change (.newInstance ⟨9, 9, 9⟩), .change (.register 0 0 (.native 7)),
        .change (.newHandle 0 (.object 0))] = some c
    ∧ IsTransparent Host.thrower 0 ⟨c.world, ()⟩ 0 act ⟨0⟩ (.composite .object ⟨1⟩)
        [.number 3, .null] ⟨0, 1⟩ (.native 7) := by
  have hrun : ((Scene.start .ready).run
      [.change (.newInstance ⟨9, 9, 9⟩), .change (.register 0 0 (.native 7)),
        .change (.newHandle 0 (.object 0))]).any (fun c =>
      (c.world.context? 0).any (fun act => decide act.HasRoom)
        && c.world.holdsFirst (.native 7)) = true := by
    decide +kernel
  obtain ⟨c, hc, hobserved⟩ := (Option.any_eq_true _ _).mp hrun
  obtain ⟨hcontext, hholds⟩ := Bool.and_eq_true_iff.mp hobserved
  obtain ⟨act, hact, hroom⟩ := (Option.any_eq_true _ _).mp hcontext
  obtain ⟨r, owner, hr, hcb, hx⟩ := World.exists_of_holdsFirst hholds
  refine ⟨c, act, hc, ?_⟩
  have hbridge := ((bridge_is_transparent .ready).1 _ _ hc).host Host.thrower 0 () 0 1 r ⟨0⟩ owner 0
    act (.composite .object ⟨1⟩) [.number 3, .null] hr hx hact (of_decide_eq_true hroom) (by decide)
  rwa [hcb] at hbridge

end ScriptBoundary.Boundary
