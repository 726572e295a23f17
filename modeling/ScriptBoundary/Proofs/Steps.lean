import ScriptBoundary.Proofs.Context
import ScriptBoundary.Proofs.Handover
import ScriptBoundary.Proofs.Ownership
import ScriptBoundary.Proofs.Whereabouts

/-!
# Scripts and host programs on their way

`runProgram` runs a script to its end and `Act.run` a host program. A statement about what a script
does after one particular call has returned, or about what a callback asks for before it returns,
needs the points in between. `Steps` is a script that has come from one point to another, with the
calls of the host that it has made on the way; `Act.Leads` is the same for a host program.

A call of the host is one step, however much happens inside: it is a `Visit`, and the script goes on
with its result. What lies between the call and the host's code is a series of conversions, and what
lies between the host's code and the script is another one. `invokeAt_succ` says that nothing else
does: a call of a live registration is one run of the host's code, from the world in which its
arguments have been handed over to the world from which its outcome is taken.

An operation with an outcome is an `Errand`: it has a script, and the script starts from the point
where the arguments have been taken.

## Main results

* `invokeAt_succ`: a call is one run of the host's code
* `Steps.runProgram_eq`, `Act.Leads.run_eq`: running on from a later point is the same
* `steps_callTask`: a script that calls a function object calls the host
* `answer_errand`: an operation is its script and what is made of its end
-/

namespace ScriptBoundary.Script

/-- Whether a call can be made where neither of the limits on nesting has been reached. -/
def Activation.HasRoom (act : Activation) : Prop :=
  act.frames < act.limits.recursion ∧ act.slots < act.limits.stackSize

instance (act : Activation) : Decidable act.HasRoom := inferInstanceAs (Decidable (_ ∧ _))

/-- Where the host's code runs that is called by a script. -/
def Activation.inside (act : Activation) (f realm : Ref) (this : Value) (args : List Value) :
    Activation :=
  { act with realm, held := f :: this.links ++ args.flatMap Value.links ++ act.held }

theorem checkLimits_apply (slots : Nat) (act : Activation) (next : Completion Unit → Program) :
    checkLimits slots act next =
      (if act.limits.recursion ≤ act.frames then Comp.exceed .recursion
        else if act.limits.stackSize ≤ act.slots + slots then Comp.exceed .stack
        else pure () : Comp Unit) act next :=
  rfl

end ScriptBoundary.Script

namespace ScriptBoundary.Boundary

open Script (Activation Anchor Builtins Comp Completion HostCall Machine Program Ref)

variable {σ α : Type}

/-! ## From a script to the host and back -/

/-- The run of the host's code for a call, from where the arguments have been handed over. -/
def Host.code (host : Host σ) (n : Nat) (k : HostCall) (c : Callback) (s : State σ) :
    Except Fault (Outcome × State σ) :=
  (host.call k.anchor.owner c (s.world.handed k).head! (s.world.handed k).tail).run
    (answer (invokeAt host n)) { s with world := s.world.atEntry k }

namespace Visit

/-- What the value that the host's code returned is decoded to. -/
def value (v : Visit σ) : Script.Value :=
  (v.after.world.decode v.call.activation.realm v.outcome.value).1

/-- What the script gets that has called the host: that value, returned or thrown as the outcome
says. -/
def result (v : Visit σ) : Completion Script.Value :=
  if v.outcome.isException then .thrown v.value else .value v.value

/-- The state in which the script goes on. -/
def resume (v : Visit σ) : State σ :=
  { v.after with
    world := (v.after.world.decode v.call.activation.realm v.outcome.value).2.leave v.call.anchor
      (v.before.world.lentBy v.owner) }

theorem heap_resume (v : Visit σ) : v.resume.world.heap =
    (v.after.world.decode v.call.activation.realm v.outcome.value).2.heap :=
  World.heap_congr (World.setting_leave _ _ _)

theorem means_value (v : Visit σ) :
    v.after.world.Means v.outcome.value v.resume.world.heap v.value := by
  rw [heap_resume]
  exact World.means_decode _ _ _

end Visit

section Call

variable {host : Host σ} {n : Nat} {k : HostCall} {c : Callback} {s t : State σ}

/-- **A call of a live registration** is one run of its callback's code. -/
theorem invokeAt_succ (hc : s.world.callbackOf k.anchor = some c) :
    invokeAt host (n + 1) k s = match host.code n k c s with
      | .error e => .error e
      | .ok (o, t) => .ok (Visit.result ⟨k, c, s, o, t⟩, Visit.resume ⟨k, c, s, o, t⟩) := by
  have hlent : (s.world.handOver k).lentBy k.anchor.owner = s.world.lentBy k.anchor.owner :=
    World.lentBy_congr (World.calls_handOver _ _) _
  show invoke host (invokeAt host n) k s = _
  rw [invoke_apply, hc]
  dsimp only
  rw [World.instance?_bind_lent]
  show (match host.code n k c s with | .error e => _ | .ok (outcome, t) => _) = _
  cases host.code n k c s with
  | error e => rfl
  | ok p =>
    obtain ⟨o, t⟩ := p
    dsimp only
    rw [Visit.result, Visit.value, Visit.resume, Visit.owner]
    dsimp only
    rw [← hlent]
    rfl

/-- A call of a callback that is gone gives undefined, and nothing happens. -/
theorem invokeAt_gone (hc : s.world.callbackOf k.anchor = none) :
    invokeAt host (n + 1) k s = .ok (.value .undefined, s) := by
  show invoke host (invokeAt host n) k s = _
  rw [invoke_apply, hc]

/-- Where there is room, checking the limits does nothing. -/
theorem checkLimits_of_hasRoom {act : Activation} (hroom : act.HasRoom)
    (next : Completion Unit → Program) : Script.checkLimits 0 act next = next (.value ()) := by
  obtain ⟨hframes, hslots⟩ := hroom
  have hstill : act.slots + 0 < act.limits.stackSize := hslots
  rw [Script.checkLimits_apply, if_neg (Nat.not_le.mpr hframes), if_neg (Nat.not_le.mpr hstill)]
  rfl

theorem enterBuiltin_of_hasRoom {act : Activation} (hroom : act.HasRoom) (f realm : Ref)
    (this : Script.Value) (args : List Script.Value) (body : Comp α)
    (next : Completion α → Program) :
    Machine.enterBuiltin f realm this args body act next =
      body (act.inside f realm this args) next :=
  checkLimits_of_hasRoom hroom _

end Call

/-! ## Scripts -/

/-- Whether a script comes from one point to another, and by which calls of the host. -/
inductive Steps (host : Host σ) (n : Nat) :
    Program → State σ → List (Visit σ) → Program → State σ → Prop where
  | refl (p : Program) (s : State σ) : Steps host n p s [] p s
  | look {next : Script.Heap → Program} {s t : State σ} {vs : List (Visit σ)} {q : Program}
      (h : Steps host n (next s.world.heap) s vs q t) : Steps host n (.look next) s vs q t
  | edit {e : Script.Edit} {next : Nat → Program} {s t : State σ} {vs : List (Visit σ)}
      {q : Program} (h : Steps host n (next (s.world.heap.apply e).2)
        { s with world := { s.world with heap := (s.world.heap.apply e).1 } } vs q t) :
      Steps host n (.edit e next) s vs q t
  | visit {v : Visit σ} {next : Completion Script.Value → Program} {t : State σ}
      {vs : List (Visit σ)} {q : Program} (hv : v.Genuine host n)
      (h : Steps host n (next v.result) v.resume vs q t) :
      Steps host n (.call v.call next) v.before (v :: vs) q t
  /-- A call of a callback that is gone gives undefined. -/
  | gone {k : HostCall} {next : Completion Script.Value → Program} {s t : State σ}
      {vs : List (Visit σ)} {q : Program} (hk : s.world.callbackOf k.anchor = none) (hn : n ≠ 0)
      (h : Steps host n (next (.value .undefined)) s vs q t) : Steps host n (.call k next) s vs q t

section Visits

variable {host : Host σ} {n : Nat} {v : Visit σ}

/-- What comes of the call of the host that a visit is. -/
theorem Visit.Genuine.invokeAt_eq (h : v.Genuine host n) :
    invokeAt host n v.call v.before = .ok (v.result, v.resume) := by
  obtain ⟨m, rfl, hran⟩ := h.ran
  have hcode : host.code m v.call v.callback v.before = .ok (v.outcome, v.after) := hran
  rw [invokeAt_succ h.found, hcode]

/-- What there is when a script goes on is what there is once the returned value has been taken. -/
theorem Visit.holding_resume (v : Visit σ) : v.resume.holding = v.closing := by
  have hpurse : v.resume.world.purse = v.after.world.purse.takeValue v.outcome.value := by
    rw [Visit.resume]
    exact (World.purse_leave _ _ _).trans (World.purse_decode _ _ _)
  rw [State.holding, hpurse]
  rfl

/-- What the host's code does to the heap, it does by moves. -/
theorem evolvesHeap_of_run {m : Act σ α} {s t : State σ} {a : α}
    (h : m.run (answer (invokeAt host n)) s = .ok (a, t)) :
    s.world.heap.Evolves t.world.heap := by
  obtain ⟨ms, hms⟩ := (Scene.follows ⟨s.world, []⟩).code host n m s.host a t rfl h
  exact Scene.evolvesHeap_run hms

theorem evolves_of_run {m : Act σ α} {s t : State σ} {a : α}
    (h : m.run (answer (invokeAt host n)) s = .ok (a, t)) :
    s.world.purse.Evolves t.world.purse := by
  obtain ⟨ms, hms⟩ := (Scene.follows ⟨s.world, []⟩).code host n m s.host a t rfl h
  exact Scene.evolves_run hms

/-- Taking the returned value adds objects and changes none. -/
theorem Visit.evolvesHeap_resume (v : Visit σ) :
    v.after.world.heap.Evolves v.resume.world.heap := by
  rw [Visit.heap_resume]
  exact World.evolvesHeap_decode _ _ _

theorem Visit.Genuine.evolvesHeap (h : v.Genuine host n) :
    v.before.world.heap.Evolves v.resume.world.heap := by
  obtain ⟨m, -, hran⟩ := h.ran
  have hcode := evolvesHeap_of_run hran
  exact (World.heap_atEntry v.before.world v.call ▸ hcode).trans v.evolvesHeap_resume

end Visits

namespace Steps

variable {host : Host σ} {n : Nat} {p q r : Program} {s t u : State σ} {vs ws : List (Visit σ)}

theorem trans (h : Steps host n p s vs q t) (h' : Steps host n q t ws r u) :
    Steps host n p s (vs ++ ws) r u := by
  induction h with
  | refl p s => exact h'
  | look _ ih => exact .look (ih h')
  | edit _ ih => exact .edit (ih h')
  | visit hv _ ih => exact .visit hv (ih h')
  | gone hk hn _ ih => exact .gone hk hn (ih h')

/-- **Running on from a later point** is the same as running from the earlier one. -/
theorem runProgram_eq (h : Steps host n p s vs q t) :
    runProgram (invokeAt host n) p s = runProgram (invokeAt host n) q t := by
  induction h with
  | refl p s => rfl
  | look _ ih => exact ih
  | edit _ ih => exact ih
  | visit hv _ ih =>
    rw [runProgram_call, hv.invokeAt_eq]
    exact ih
  | @gone k next s t vs q hk hn _ ih =>
    obtain ⟨m, rfl⟩ := Nat.exists_eq_succ_of_ne_zero hn
    rw [runProgram_call, invokeAt_gone hk]
    exact ih

theorem genuine (h : Steps host n p s vs q t) : ∀ v ∈ vs, v.Genuine host n := by
  induction h with
  | refl p s => exact fun v hv => absurd hv List.not_mem_nil
  | look _ ih => exact ih
  | edit _ ih => exact ih
  | visit hv _ ih => exact List.forall_mem_cons.mpr ⟨hv, ih⟩
  | gone _ _ _ ih => exact ih

/-- The calls of the host are all that happens to handles on the way. -/
theorem chain (h : Steps host n p s vs q t) : Chain s.holding vs t.holding := by
  induction h with
  | refl p s => exact rfl
  | look _ ih => exact ih
  | edit _ ih => exact ih
  | @visit v next t vs q hv _ ih =>
    rw [v.holding_resume] at ih
    exact ⟨rfl, ih⟩
  | gone _ _ _ ih => exact ih

theorem evolvesHeap (h : Steps host n p s vs q t) : s.world.heap.Evolves t.world.heap := by
  induction h with
  | refl p s => exact .refl _
  | look _ ih => exact ih
  | edit _ ih => exact (Script.Heap.evolves_apply _ _).trans ih
  | visit hv _ ih => exact hv.evolvesHeap.trans ih
  | gone _ _ _ ih => exact ih

end Steps

/-! ## Calling a function object -/

section Call

variable {host : Host σ} {n : Nat} {s : State σ}

/-- **A script that calls the function object of a callback** calls the host, if it has room. -/
theorem steps_callTask (m : Machine) (library : Builtins) {f realm : Ref} {a : Anchor}
    {act : Activation} (hn : (s.world.heap.object f).nature = .hostFunction realm)
    (ha : (s.world.heap.object f).anchor = some a) (hroom : act.HasRoom) (this : Script.Value)
    (args : List Script.Value) (next : Completion Script.Value → Program) :
    Steps host n (m.callTask library (.object f) this args act next) s []
      (.call ⟨a, this, args, act.inside f realm this args⟩ next) s := by
  have hlook : ∀ body : Script.Object → Comp Script.Value,
      (Comp.readObject f >>= body) act next = .look fun h => body (h.object f) act next :=
    fun _ => rfl
  rw [Machine.callTask, hlook]
  refine .look ?_
  rw [hn, ha]
  dsimp only
  rw [enterBuiltin_of_hasRoom hroom]
  exact .refl _ _

/-- Running that script is having the host answer, and going on with the answer. -/
theorem runProgram_callTask (host : Host σ) (n : Nat) (library : Builtins) (depth : Nat)
    {a : Anchor} {f : Ref} {act : Activation} (hf : IsFunctionOf s.world.heap a f)
    (hroom : act.HasRoom) (this : Script.Value) (args : List Script.Value)
    (next : Completion Script.Value → Program) :
    ∃ k : HostCall, k.anchor = a ∧ k.this = this ∧ k.args = args
      ∧ runProgram (invokeAt host n)
          (Machine.ofDepth library (depth + 1) (.call (.object f) this args) act next) s =
        match invokeAt host n k s with
        | .ok (result, t) => runProgram (invokeAt host n) (next result) t
        | .error e => .error e := by
  obtain ⟨-, ha, realm, hnature⟩ := hf
  refine ⟨⟨a, this, args, act.inside f realm this args⟩, rfl, rfl, rfl, ?_⟩
  have hsteps : Steps host n _ s [] _ s :=
    steps_callTask (Machine.ofDepth library depth) library hnature ha hroom this args next
  exact hsteps.runProgram_eq.trans (runProgram_call _ _ _ _)

/-- The machine that runs scripts does a task with another one for what the task leads to. -/
theorem exists_machine_step : ∃ m : Machine,
    ∀ t, Script.machine t = Machine.step Script.Builtin.find? m t := by
  obtain ⟨depth, hdepth⟩ : ∃ depth, Script.machineDepth = depth + 1 := ⟨999999999, rfl⟩
  refine ⟨Machine.ofDepth Script.Builtin.find? depth, fun t => ?_⟩
  rw [Script.machine, hdepth]
  rfl

/-- The operation that calls a function calls the host if that is what the function stands for. The
host's code runs in the same context, but in the realm of the function. -/
theorem steps_operationCall (host : Host σ) (n : Nat) {f realm : Ref} {a : Anchor}
    {act : Activation} (hn : (s.world.heap.object f).nature = .hostFunction realm)
    (ha : (s.world.heap.object f).anchor = some a) (hroom : act.HasRoom) (this : Script.Value)
    (args : List Script.Value) : ∃ held,
    Steps host n ((Operation.call (.object f) this args).start act) s []
      (.call ⟨a, this, args, { act with realm, held }⟩ .done) s := by
  let kept : Activation :=
    { act with held := (.object f :: this :: args).flatMap Script.Value.links ++ act.held }
  have hcallable : s.world.heap.isCallable (.object f) = true := by
    rw [Script.Heap.isCallable, hn]
    rfl
  obtain ⟨m, hstep⟩ := exists_machine_step
  have hm : Script.machine.call (.object f) this args =
      m.callTask Script.Builtin.find? (.object f) this args := hstep _
  have hkept : kept.HasRoom := hroom
  have hlook : (Operation.call (.object f) this args).start act = .look fun h =>
      (if h.isCallable (.object f) then Script.machine.call (.object f) this args
        else Comp.throwType "value is not a function" : Comp Script.Value) kept .done := rfl
  refine ⟨(kept.inside f realm this args).held, ?_⟩
  rw [hlook]
  refine .look ?_
  rw [if_pos hcallable, hm]
  exact steps_callTask m _ hn ha hkept this args .done

end Call

/-! ## Host programs -/

/-- Whether a host program comes from one point to another. -/
inductive Act.Leads (respond : (r : Request) → Run σ r.Answer) :
    Act σ α → State σ → Act σ α → State σ → Prop where
  | refl (m : Act σ α) (s : State σ) : Leads respond m s m s
  | ask {r : Request} {next : r.Answer → Act σ α} {s s' t : State σ} {a : r.Answer} {q : Act σ α}
      (ha : respond r s = .ok (a, s')) (h : Leads respond (next a) s' q t) :
      Leads respond (.ask r next) s q t
  | read {next : σ → Act σ α} {s t : State σ} {q : Act σ α}
      (h : Leads respond (next s.host) s q t) : Leads respond (.read next) s q t
  | write {g : σ} {next : Act σ α} {s t : State σ} {q : Act σ α}
      (h : Leads respond next { s with host := g } q t) : Leads respond (.write g next) s q t

theorem Act.Leads.run_eq {respond : (r : Request) → Run σ r.Answer} {m q : Act σ α}
    {s t : State σ} (h : m.Leads respond s q t) : m.run respond s = q.run respond t := by
  induction h with
  | refl m s => rfl
  | ask ha _ ih =>
    rw [Act.run_ask, ha]
    exact ih
  | read _ ih => exact ih
  | write _ ih => exact ih

/-! ## Operations -/

/-- What an operation with an outcome does: it runs a script on the arguments that it is passed. -/
structure Errand where
  owner : InstanceId
  args : List Value
  body : List Script.Value → Comp Script.Value

namespace Request

/-- What an operation does, if it has an outcome. Handles passed by reference are looked up
first. -/
def errand? (w : World) : Request → Option Errand
  | .eval i source => some ⟨i, [], fun _ => Script.evalSource (Utf8.decodeString source)⟩
  | .get i object key =>
    some ⟨i, [key], fun vs => Operation.get (w.referent object) (vs.getD 0 .undefined)⟩
  | .set i object key value =>
    some ⟨i, [key, value], fun vs =>
      Operation.set (w.referent object) (vs.getD 0 .undefined) (vs.getD 1 .undefined)⟩
  | .remove i object key =>
    some ⟨i, [key], fun vs => Operation.remove (w.referent object) (vs.getD 0 .undefined)⟩
  | .has i object key =>
    some ⟨i, [key], fun vs => Operation.has (w.referent object) (vs.getD 0 .undefined)⟩
  | .getIndex i object index =>
    some ⟨i, [], fun _ => Operation.getIndex (w.referent object) index⟩
  | .setIndex i object index value =>
    some ⟨i, [value], fun vs =>
      Operation.setIndex (w.referent object) index (vs.getD 0 .undefined)⟩
  | .call i function this args =>
    some ⟨i, this :: args, fun vs =>
      Operation.call (w.referent function) (vs.headD .undefined) vs.tail⟩
  | .toNumber i v => some ⟨i, [v], fun vs => Operation.toNumber (vs.headD .undefined)⟩
  | .toText i v => some ⟨i, [v], fun vs => Operation.toText (vs.headD .undefined)⟩
  | _ => none

/-- The outcome in the answer to an operation that has one. -/
def outcome? : (r : Request) → r.Answer → Option Outcome
  | .eval .., o | .get .., o | .set .., o | .remove .., o | .has .., o | .getIndex .., o
  | .setIndex .., o | .call .., o | .toNumber .., o | .toText .., o => some o
  | _, _ => none

variable {w : World} {r : Request} {e : Errand}

theorem operatesOn_of_errand (he : r.errand? w = some e) : r.operatesOn? = some e.owner := by
  cases r <;> cases he <;> rfl

theorem consumed_of_errand (he : r.errand? w = some e) : r.consumed = e.args := by
  cases r <;> cases he <;> rfl

end Request

namespace Errand

/-- The script of an operation, where its arguments have been taken. -/
def program (e : Errand) (act : Activation) (w : World) : Program :=
  (e.body ((w.occupy e.owner).decodeAll act.realm e.args).1).start act

/-- The state in which it starts. -/
def opening (e : Errand) (act : Activation) (s : State σ) : State σ :=
  { s with world := ((s.world.occupy e.owner).decodeAll act.realm e.args).2 }

theorem holding_opening (e : Errand) (act : Activation) (s : State σ) :
    (e.opening act s).holding = ⟨s.world.purse.takeAll e.args, s.host⟩ := by
  have hpurse : (e.opening act s).world.purse = s.world.purse.takeAll e.args := by
    rw [← (World.SameStore.occupy s.world e.owner).purse]
    exact World.purse_decodeAll _ _ _
  rw [State.holding, hpurse]
  rfl

end Errand

/-- An operation takes its arguments, runs, and hands out what comes of it. -/
theorem operateIn_apply (invoke : Invoke σ) (i : InstanceId) (args : List Value)
    (body : List Script.Value → Comp Script.Value) (act : Activation) (s : State σ) :
    operateIn invoke i args body act s =
      match runIn invoke act (body (s.world.decodeAll act.realm args).1)
          { s with world := (s.world.decodeAll act.realm args).2 } with
      | .ok (c, t) => conclude invoke i act c t
      | .error e => .error e := by
  simp only [operateIn, Run.bind_apply, Run.alter_apply]
  cases runIn invoke act (body (s.world.decodeAll act.realm args).1)
    { s with world := (s.world.decodeAll act.realm args).2 } <;> rfl

/-- Taking the arguments adds objects and touches no registration. -/
theorem Errand.evolvesHeap_opening (e : Errand) (act : Activation) (s : State σ) :
    s.world.heap.Evolves (e.opening act s).world.heap := by
  rw [← (World.SameStore.occupy s.world e.owner).heap]
  exact World.evolvesHeap_decodeAll _ _ _

theorem Errand.callbackOf_opening (e : Errand) (act : Activation) (s : State σ) (a : Anchor) :
    (e.opening act s).world.callbackOf a = s.world.callbackOf a := by
  rw [← (World.SameStore.occupy s.world e.owner).callbackOf]
  exact World.callbackOf_congr (World.calls_decodeAll _ _ _) a

/-- **The operation that calls a function object** takes its arguments and calls the host. -/
theorem steps_call (host : Host σ) (n : Nat) {s : State σ} (j : InstanceId) {h : Handle}
    (this : Value) (args : List Value) {a : Anchor} {f : Ref} {act : Activation}
    (href : s.world.referent h = .object f) (hf : IsFunctionOf s.world.heap a f)
    (hroom : act.HasRoom) : ∃ e k, (Request.call j h this args).errand? s.world = some e
      ∧ e.owner = j ∧ e.args = this :: args ∧ k.anchor = a
      ∧ (∃ realm held, (s.world.heap.object f).nature = .hostFunction realm
        ∧ k.activation = { act with realm, held })
      ∧ k.this :: k.args = ((s.world.occupy j).decodeAll act.realm (this :: args)).1
      ∧ Steps host n (e.program act s.world) (e.opening act s) [] (.call k .done)
        (e.opening act s) := by
  let e : Errand := ⟨j, this :: args, fun vs =>
    Operation.call (.object f) (vs.headD .undefined) vs.tail⟩
  have he : (Request.call j h this args).errand? s.world = some e := by
    rw [Request.errand?, href]
  obtain ⟨-, ha, realm', hn⟩ := hf.evolves (e.evolvesHeap_opening act s)
  obtain ⟨hlt, -, realm, hnature⟩ := hf
  have hkept := (e.evolvesHeap_opening act s).nature hlt
  rw [hnature, hn] at hkept
  obtain rfl : realm' = realm := Script.Nature.hostFunction.inj
    (hkept.eq_of_fixed (Script.Nature.canBecome_hostFunction realm))
  obtain ⟨held, hsteps⟩ := steps_operationCall host n (s := e.opening act s) hn ha hroom
    ((s.world.occupy j).decode act.realm this).1
    (((s.world.occupy j).decode act.realm this).2.decodeAll act.realm args).1
  exact ⟨e, ⟨a, _, _, _⟩, he, rfl, rfl, rfl, ⟨realm', held, hnature, rfl⟩, rfl, hsteps⟩

/-- What is done in the context of an instance: the script runs, and something is made of its
end. -/
theorem inContext_operateIn {invoke : Invoke σ} {i : InstanceId} {args : List Value}
    {body : List Script.Value → Comp Script.Value} {s t t' : State σ} {act : Activation}
    {c : Completion Script.Value} {o : Outcome} (hact : s.world.context? i = some act)
    (hrun : runProgram invoke ((body ((s.world.occupy i).decodeAll act.realm args).1).start act)
      { s with world := ((s.world.occupy i).decodeAll act.realm args).2 } = .ok (c, t))
    (hc : conclude invoke i act c t = .ok (o, t')) :
    inContext i (operateIn invoke i args body) s =
      .ok (o, { t' with world := t'.world.relinquish (s.world.usesOwn i) i }) := by
  have hscript : runIn invoke act (body ((s.world.occupy i).decodeAll act.realm args).1)
      { s with world := ((s.world.occupy i).decodeAll act.realm args).2 } = .ok (c, t) := hrun
  rw [inContext_of_context hact, operateIn_apply, hscript]
  dsimp only
  rw [hc]

/-- **An operation** is its script and what is made of its end. -/
theorem answer_errand {invoke : Invoke σ} {r : Request} {s t t' : State σ} {e : Errand}
    {act : Activation} {c : Completion Script.Value} {o : Outcome}
    (he : r.errand? s.world = some e) (hact : s.world.context? e.owner = some act)
    (hrun : runProgram invoke (e.program act s.world) (e.opening act s) = .ok (c, t))
    (hc : conclude invoke e.owner act c t = .ok (o, t')) :
    ∃ a, r.outcome? a = some o ∧ answer invoke r s =
      .ok (a, { t' with world := t'.world.relinquish (s.world.usesOwn e.owner) e.owner }) := by
  have hcontext : inContext e.owner (operateIn invoke e.owner e.args e.body) s = _ :=
    inContext_operateIn hact hrun hc
  cases r with
  | eval | get | set | remove | has | getIndex | setIndex | call | toNumber | toText =>
    obtain rfl := Option.some.inj he
    exact ⟨o, rfl, (answer_eq_inContext rfl rfl).trans hcontext⟩
  | _ => cases he

end ScriptBoundary.Boundary
