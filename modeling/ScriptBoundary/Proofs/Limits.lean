import ScriptBoundary.Proofs.Outcome
import ScriptBoundary.Proofs.Relay

/-!
# Where limits surface

A script that exceeds a limit ends there. What is about it in the script does not get to run: no
handler, no final block, no `return` method of an iterator. The operation that runs the script is
where this ends. It makes a range error, and for everybody outside that is an exception like any
other: the callback that asked for the operation may pass it on, and then the script that called the
callback can catch it.

## Coming to a limit

A program shows where a script ends, but not what the script was in the middle of. So a failed check
is followed from the inside: `Comp.Trips` begins with a check that fails, and has one constructor
for each way in which a computation can be a part of another one. Statements, handlers, loops and
calls are made of these, so a check may fail at any depth of them (`Machine.trips_execTry` and the
lemmas next to it say what that means for the constructs that look at how their parts end).

The state at the end of `Trips` is the one in which the check failed, and `Comp.Trips.leads` says
that the script ends in that very state: nothing has been done since.

## What others notice

Nothing, that is the point. A script that throws a range error with the same message where the limit
was exceeded leaves the operation with the same outcome and the same world
(`LimitSurfaces.ordinary`), the contexts, ledgers and tables of all instances included, so no later
operation can tell.

## Main results

* `Comp.Trips.leads`: what a script does once a limit is exceeded
* `limits_surface_innermost`: what becomes of it outside
-/

namespace ScriptBoundary.Script

open Boundary (Host State Steps)

variable {σ : Type} {host : Host σ} {n : Nat} {α β : Type} {act : Activation} {s t u : State σ}
  {fault : LimitFault}

theorem tick_apply (f : Frame) (act : Activation) (next : Completion Unit → Program) :
    tick f act next = .edit (.tick f.tally) fun before =>
      (if before > act.limits.loopIterations then Comp.exceed (.loop act.limits.loopIterations)
        else pure () : Comp Unit) act next :=
  rfl

/-! ## In a script -/

namespace Comp

/-- Whether a computation comes to a check of its limits that fails, which limit that is, and in
which state it is found. Between the check and the whole there may be any number of handlers. -/
inductive Trips (host : Host σ) (n : Nat) :
    {α : Type} → Comp α → Activation → State σ → LimitFault → State σ → Prop where
  /-- One call too many is in progress. -/
  | recursion {act : Activation} {s : State σ} {slots : Nat}
      (h : act.limits.recursion ≤ act.frames) : Trips host n (checkLimits slots) act s .recursion s
  /-- There are not enough operand slots. -/
  | stack {act : Activation} {s : State σ} {slots : Nat}
      (hframes : act.frames < act.limits.recursion)
      (h : act.limits.stackSize ≤ act.slots + slots) :
      Trips host n (checkLimits slots) act s .stack s
  /-- A call has been through too many iterations. -/
  | loop {act : Activation} {s : State σ} {f : Frame}
      (h : act.limits.loopIterations < (s.world.heap.apply (.tick f.tally)).2) :
      Trips host n (tick f) act s (.loop act.limits.loopIterations)
        (s.withHeap (s.world.heap.apply (.tick f.tally)).1)
  | first {α β : Type} {m : Comp α} {g : α → Comp β} {act : Activation} {s t : State σ}
      {fault : LimitFault} (h : Trips host n m act s fault t) : Trips host n (m >>= g) act s fault t
  | next {α β : Type} {m : Comp α} {g : α → Comp β} {act : Activation} {s t u : State σ} {a : α}
      {fault : LimitFault} (hm : m.Leads host n act s (.value a) t)
      (h : Trips host n (g a) act t fault u) : Trips host n (m >>= g) act s fault u
  | within {α : Type} {m : Comp α} {f : Activation → Activation} {act : Activation} {s t : State σ}
      {fault : LimitFault} (h : Trips host n m (f act) s fault t) :
      Trips host n (Comp.within f m) act s fault t
  /-- Inside what a handler guards, -/
  | guarded {α : Type} {m : Comp α} {handler : Value → Comp α} {act : Activation} {s t : State σ}
      {fault : LimitFault} (h : Trips host n m act s fault t) :
      Trips host n (catchThrow m handler) act s fault t
  /-- in a handler that is running, -/
  | handling {α : Type} {m : Comp α} {handler : Value → Comp α} {act : Activation}
      {s t u : State σ} {v : Value} {fault : LimitFault} (hm : m.Leads host n act s (.thrown v) t)
      (h : Trips host n (handler v) act t fault u) :
      Trips host n (catchThrow m handler) act s fault u
  /-- and inside what is looked at when it has ended, however it ends. -/
  | attempted {α β : Type} {m : Comp α} {g : Completion α → Comp β} {act : Activation}
      {s t : State σ} {fault : LimitFault} (hg : ∀ l, g (.limit l) = exceed l)
      (h : Trips host n m act s fault t) : Trips host n (attempt m >>= g) act s fault t

theorem Trips.keeping {m : Comp α} {vs : List Value}
    (h : m.Trips host n { act with held := vs.flatMap Value.links ++ act.held } s fault t) :
    (Comp.keeping vs m).Trips host n act s fault t := .within h

/-- **Nothing is done once a limit is exceeded**: the computation ends there, at whatever depth, and
in the state in which the check failed. -/
theorem Trips.leads {m : Comp α} (h : m.Trips host n act s fault t) :
    m.Leads host n act s (.limit fault) t := by
  induction h with
  | @recursion act s slots h =>
    refine ⟨[], fun next => ?_⟩
    rw [checkLimits_apply, if_pos h]
    exact .refl _ _
  | @stack act s slots hframes h =>
    refine ⟨[], fun next => ?_⟩
    rw [checkLimits_apply, if_neg (Nat.not_le.mpr hframes), if_pos h]
    exact .refl _ _
  | @loop act s f h =>
    refine ⟨[], fun next => ?_⟩
    rw [tick_apply]
    refine .edit ?_
    rw [if_pos h]
    exact .refl _ _
  | first _ ih => exact ih.fail (f := .limit _) _
  | next hm _ ih => exact hm.bind ih
  | within _ ih => exact ih
  | guarded _ ih =>
    obtain ⟨vs, hvs⟩ := ih
    exact ⟨vs, fun next => hvs _⟩
  | handling hm _ ih =>
    obtain ⟨vs, hvs⟩ := hm
    obtain ⟨ws, hws⟩ := ih
    exact ⟨vs ++ ws, fun next => (hvs _).trans (hws next)⟩
  | @attempted α β m g act s t fault hg _ ih =>
    obtain ⟨vs, hvs⟩ := ih
    refine ⟨vs, fun next => ?_⟩
    have hend : g (.limit fault) act next = next (.limit fault) := by
      rw [hg]
      rfl
    exact hend ▸ hvs fun c => g c act next

end Comp

/-! ## In the constructs that look at how their parts end -/

namespace Machine

open ScriptBoundary.Script.Comp

variable (m : Machine)

/-- **No handler and no final block runs** when the block of a `try` exceeds a limit. -/
theorem trips_execTry {f : Frame} {body parameter handler last : Code}
    (h : (m.exec f body).Trips host n act s fault t) :
    (m.execTry f body parameter handler last).Trips host n act s fault t := by
  unfold execTry
  split
  · dsimp only
    split
    · exact .first h
    · exact .attempted (fun _ => rfl) h
  · split
    · exact .first (.guarded h)
    · exact .attempted (fun _ => rfl) (.guarded h)

/-- A loop over an iterator does not close it when the body exceeds a limit. -/
theorem trips_ofTask {f : Frame} {labels : List String} {head : Code} {body : Stmt}
    {iterator next item : Value} {v : Option Value}
    (htick : (tick f).Leads host n act s (.value ()) t)
    (hdraw : (m.draw ⟨iterator, next⟩).Leads host n act t (.value (some item)) u)
    {w : State σ} (h : (keeping [iterator, next] (m.execWith f head body item)).Trips host n act u
      fault w) :
    (m.ofTask f labels head body iterator next v).Trips host n act s fault w :=
  .next htick (.next hdraw (.attempted (fun _ => rfl) h))

/-- When closing an iterator exceeds a limit, this is what counts, and not the throw on account of
which it is closed. -/
theorem trips_closeAndThrow {α : Type} {i : Iteration} {v : Value}
    (h : (m.close i).Trips host n { act with held := [v].flatMap Value.links ++ act.held } s
      fault t) :
    (m.closeAndThrow i v : Comp α).Trips host n act s fault t :=
  .first (.keeping (.guarded h))

/-- Nor does an array pattern close it. -/
theorem trips_bindTask {f : Frame} {sort : BindingSort} {items : List Pattern} {rest : Pattern}
    {v : Value} {i : Iteration} (hiterate : (m.iterate v).Leads host n act s (.value i) t)
    (h : (m.bindItems f sort i rest false items).Trips host n act t fault u) :
    (m.bindTask f sort (.arrayPattern items rest) v).Trips host n act s fault u :=
  .next hiterate (.attempted (fun _ => rfl) h)

end Machine

end ScriptBoundary.Script

namespace ScriptBoundary.Boundary

open Script (Activation Comp Completion Intrinsic LimitFault)

variable {σ : Type}

/-! ## Outside -/

/-- What a script gets that has called the host is a value or a throw. -/
theorem Visit.result_ne_limit (v : Visit σ) (fault : LimitFault) : v.result ≠ .limit fault := by
  rw [Visit.result]
  intro heq
  split at heq <;> cases heq

/-- No call of the host ends at a limit, so none gets from the host to the script that called it. -/
theorem invokeAt_ne_limit {host : Host σ} {n : Nat} {k : Script.HostCall} {s t : State σ}
    {c : Completion Script.Value} (h : invokeAt host n k s = .ok (c, t)) (fault : LimitFault) :
    c ≠ .limit fault := by
  cases n with
  | zero => cases h
  | succ n =>
    cases hk : s.world.callbackOf k.anchor with
    | none =>
      rw [invokeAt_gone hk] at h
      cases h
      intro heq
      cases heq
    | some cb =>
      rw [invokeAt_succ hk] at h
      cases hcode : host.code n k cb s with
      | error e =>
        rw [hcode] at h
        cases h
      | ok p =>
        rw [hcode] at h
        cases h
        exact Visit.result_ne_limit _ _

/-- A handler in a script catches what a call of the host throws. -/
theorem Visit.Genuine.leads_catchThrow {host : Host σ} {n : Nat} {u : Visit σ}
    (hu : u.Genuine host n) {x : Script.Value} (hx : u.result = .thrown x)
    {handler : Script.Value → Comp Script.Value} {c : Completion Script.Value} {t : State σ}
    (h : (handler x).Leads host n u.call.activation u.resume c t) :
    ((Comp.callHost u.call.anchor u.call.this u.call.args).catchThrow handler).Leads host n
      u.call.activation u.before c t := by
  obtain ⟨vs, hvs⟩ := h
  refine ⟨u :: vs, fun next => .visit hu ?_⟩
  rw [hx]
  exact hvs next

/-- What becomes of a limit that an operation's script exceeds, outside of the script. The script
has come to the state `t` when the check fails. -/
structure LimitSurfaces (host : Host σ) (n : Nat) (r : Request) (s : State σ) (e : Errand)
    (act : Activation) (fault : LimitFault) (t : State σ) (a : r.Answer) (h : Handle)
    (t' : State σ) : Prop where
  /-- The script does nothing more. -/
  ends : ∃ vs, Steps host n (e.program act s.world) (e.opening act s) vs (.done (.limit fault)) t
  /-- The operation that runs it returns an exception whose value is an object. -/
  answered : answer (invokeAt host n) r s = .ok (a, t')
  outcome : r.outcome? a = some ⟨.composite .object h, true⟩
  handle : t'.world.cell? h = some ⟨.object t.world.heap.cells.size, e.owner⟩
  /-- No cell was there before, and it is a range error with the limit's message. -/
  error : t'.world.heap.object t.world.heap.cells.size =
    { nature := .error
      proto := some
        ((t.world.heap.realm act.realm).base + Intrinsic.rangeErrorPrototype.ctorIdx)
      extensible := true
      props := .ofList [(.ofString "message", .hidden (.ofString fault.message))]
      anchor := none }
  /-- Nothing else in the heap is touched. -/
  others : ∀ p, p ≠ t.world.heap.cells.size →
    t'.world.heap.object p = t.world.heap.object p
  /-- Any script that throws such an error at that point, of its own accord, leads to the same
  outcome and to the same state. -/
  ordinary : ∀ (body : List Script.Value → Comp Script.Value) vs (act' : Activation),
    act'.realm = act.realm →
    Steps host n ((body ((s.world.occupy e.owner).decodeAll act.realm e.args).1).start act)
      (e.opening act s) vs ((Comp.raise .rangeError fault.message).start act') t →
    inContext e.owner (operateIn (invokeAt host n) e.owner e.args body) s =
      .ok (⟨.composite .object h, true⟩, t')
  /-- No limit crosses the host's code on its way out. -/
  contained : ∀ k s₁ c s₂, invokeAt host n k s₁ = .ok (c, s₂) → ∀ l, c ≠ .limit l
  /-- If the operation was asked for by a callback, and that goes on and returns the outcome that it
  got, then the script that called it is thrown that very object. -/
  forwarded : ∀ (u : Visit σ) (rest : Act σ Outcome),
    rest.run (answer (invokeAt host n)) t' = .ok (u.outcome, u.after) →
    u.outcome = ⟨.composite .object h, true⟩ → u.after.world.cell? h ≠ none →
    u.result = .thrown (.object t.world.heap.cells.size)
  /-- A handler there catches it. -/
  caught : ∀ u : Visit σ, u.Genuine host (n + 1) →
    u.result = .thrown (.object t.world.heap.cells.size) →
    ∀ (handler : Script.Value → Comp Script.Value) c w,
      (handler (.object t.world.heap.cells.size)).Leads host (n + 1) u.call.activation u.resume c
        w →
      ((Comp.callHost u.call.anchor u.call.this u.call.args).catchThrow handler).Leads host (n + 1)
        u.call.activation u.before c w

/-- The range error that a limit becomes, in the heap that has it. -/
theorem object_limitError (heap : Script.Heap) (act : Activation) (fault : LimitFault)
    (p : Script.Ref) : (limitError heap act fault).1.object p =
      if p = heap.cells.size then
        { nature := .error
          proto := some ((heap.realm act.realm).base + Intrinsic.rangeErrorPrototype.ctorIdx)
          extensible := true
          props := .ofList [(.ofString "message", .hidden (.ofString fault.message))]
          anchor := none }
      else heap.object p :=
  Script.Heap.object_add _ _ _

/-- A script that throws a range error of its own accord makes the same one. -/
theorem runProgram_raise (invoke : Invoke σ) {act act' : Activation} (h : act'.realm = act.realm)
    (fault : LimitFault) (t : State σ) :
    runProgram invoke ((Comp.raise .rangeError fault.message).start act') t =
      .ok (.thrown (.object t.world.heap.cells.size),
        t.withHeap (limitError t.world.heap act fault).1) := by
  have hraise : runProgram invoke ((Comp.raise .rangeError fault.message).start act') t =
      .ok (.thrown (.object t.world.heap.cells.size),
        t.withHeap (limitError t.world.heap act' fault).1) := rfl
  rw [hraise, limitError, limitError, h]

/-- What a handle refers to is what its value is decoded to, as long as the handle is out. -/
theorem Visit.result_of_exception {host : Host σ} {n : Nat} {u : Visit σ} {t : State σ}
    {rest : Act σ Outcome} {kind : Kind} {h : Handle} {x : Script.Value} {i : InstanceId}
    (hrest : rest.run (answer (invokeAt host n)) t = .ok (u.outcome, u.after))
    (hcell : t.world.cell? h = some ⟨x, i⟩) (ho : u.outcome = ⟨.composite kind h, true⟩)
    (hkept : u.after.world.cell? h ≠ none) : u.result = .thrown x := by
  have hlt : h.id < t.world.purse.cells.size :=
    Purse.lt_of_cell? (p := t.world.purse) (by rw [World.cell?_purse, hcell]; nofun)
  have hstill : u.after.world.cell? h = some ⟨x, i⟩ := by
    rcases (evolves_of_run hrest).cell h hlt with hsame | hgone
    · exact (World.cell?_purse _ _).symm.trans (hsame.trans hcell)
    · exact absurd hgone hkept
  rw [Visit.result, ho, if_pos rfl, Visit.value, ho, World.decode_composite hstill]

/-- The world in which a range error for a limit has been made and an instance has a handle to
it. -/
def World.withLimitError (w : World) (i : InstanceId) (act : Activation) (fault : LimitFault) :
    World :=
  ({ w with heap := (limitError w.heap act fault).1 }.newHandle i (.object w.heap.cells.size)).2

/-- The throw of such an error is told the host by a handle. -/
theorem conclude_rangeError (invoke : Invoke σ) (i : InstanceId) (act : Activation)
    (fault : LimitFault) (t : State σ) :
    conclude invoke i act (.thrown (.object t.world.heap.cells.size))
        (t.withHeap (limitError t.world.heap act fault).1) =
      .ok (⟨.composite .object ⟨t.world.handles.size⟩, true⟩,
        { t with world := t.world.withLimitError i act fault }) := by
  let w : World := { t.world with heap := (limitError t.world.heap act fault).1 }
  have hnature : (w.heap.object t.world.heap.cells.size).nature = .error := by
    rw [object_limitError, if_pos rfl]
  have hform : Form.of w.heap (.object t.world.heap.cells.size) = .composite .object := by
    rw [Form.of_object (by rw [hnature]; nofun), hnature]
    rfl
  have hencode : w.encode i (.object t.world.heap.cells.size) =
      (.composite .object ⟨t.world.handles.size⟩, t.world.withLimitError i act fault) :=
    World.encode_composite hform
  have hconclude : conclude invoke i act (.thrown (.object t.world.heap.cells.size))
      (t.withHeap (limitError t.world.heap act fault).1) =
      .ok (⟨(w.encode i (.object t.world.heap.cells.size)).1, true⟩,
        { t with world := (w.encode i (.object t.world.heap.cells.size)).2 }) := rfl
  rw [hconclude, hencode]

/-- **Limits surface at the innermost operation**: if its script comes to a check that fails,
however deep inside of handlers, the operation returns a range error. -/
theorem limits_surface_innermost {host : Host σ} {n : Nat} {r : Request} {s t : State σ}
    {e : Errand} {act : Activation} {fault : LimitFault} (he : r.errand? s.world = some e)
    (hact : s.world.context? e.owner = some act)
    (htrips : (e.body ((s.world.occupy e.owner).decodeAll act.realm e.args).1).Trips host n act
      (e.opening act s) fault t) :
    ∃ a h t', LimitSurfaces host n r s e act fault t a h t' := by
  obtain ⟨vs, hvs⟩ := htrips.leads
  have hscript : Steps host n (e.program act s.world) (e.opening act s) vs
      (.done (.limit fault)) t := hvs .done
  have hthrown := conclude_rangeError (invokeAt host n) e.owner act fault t
  -- A limit is told the host as the throw of a range error is, by definition.
  obtain ⟨a, houtcome, hanswer⟩ := answer_errand he hact hscript.runProgram_eq
    ((conclude_limit (invokeAt host n) e.owner act fault t).trans hthrown)
  let ended : World := t.world.withLimitError e.owner act fault
  have hstore := World.SameStore.relinquish ended (s.world.usesOwn e.owner) e.owner
  have hheap : (ended.relinquish (s.world.usesOwn e.owner) e.owner).heap =
      (limitError t.world.heap act fault).1 :=
    hstore.heap.trans (World.heap_congr (World.setting_newHandle _ _ _))
  have hcell : (ended.relinquish (s.world.usesOwn e.owner) e.owner).cell? ⟨t.world.handles.size⟩ =
      some ⟨.object t.world.heap.cells.size, e.owner⟩ :=
    (hstore.cell? _).trans (World.cell?_newHandle _ _ _)
  refine ⟨a, ⟨t.world.handles.size⟩,
    ⟨ended.relinquish (s.world.usesOwn e.owner) e.owner, t.host⟩, ?_⟩
  constructor
  case ends => exact ⟨vs, hscript⟩
  case answered => exact hanswer
  case outcome => exact houtcome
  case handle => exact hcell
  case error =>
    dsimp only
    rw [hheap, object_limitError, if_pos rfl]
  case others =>
    intro p hp
    dsimp only
    rw [hheap, object_limitError, if_neg hp]
  case ordinary =>
    intro body vs act' hrealm hraise
    exact inContext_operateIn hact
      (hraise.runProgram_eq.trans (runProgram_raise _ hrealm fault t)) hthrown
  case contained => exact fun k s₁ c s₂ h l => invokeAt_ne_limit h l
  case forwarded => exact fun u rest hrest ho hkept => u.result_of_exception hrest hcell ho hkept
  case caught => exact fun u hu hx handler c w h => hu.leads_catchThrow hx h

/-- A function object is called where no call fits in. -/
theorem trips_operationCall {host : Host σ} {n : Nat} {s : State σ} {f realm : Script.Ref}
    {act : Activation} (hf : (s.world.heap.object f).nature = .hostFunction realm)
    (hfull : act.limits.recursion ≤ act.frames) (this : Script.Value) (args : List Script.Value) :
    (Operation.call (.object f) this args).Trips host n act s .recursion s := by
  obtain ⟨m, hstep⟩ := exists_machine_step
  have hcall : Script.machine.call (.object f) this args =
      m.callTask Script.Builtin.find? (.object f) this args := hstep _
  have hcallable : s.world.heap.isCallable (.object f) = true := by
    rw [Script.Heap.isCallable, hf]
    rfl
  refine .keeping (.next (Comp.gives_inspect _).leads_same ?_)
  rw [if_pos hcallable, hcall]
  refine .next (Comp.gives_inspect _).leads_same ?_
  rw [hf]
  exact .first (.recursion hfull)

/-- An instance that allows no calls, and a call of a function object on it. -/
theorem limit_surfaces_at_call : ∃ c e act a h t', (Scene.start .ready).run
      [.change (.newInstance ⟨9, 0, 9⟩), .change (.register 0 0 (.native 7))] = some c
    ∧ LimitSurfaces Host.bouncer 4 (.call 0 ⟨0⟩ (.number 3) []) ⟨c.world, 3⟩ e act .recursion
      (e.opening act ⟨c.world, 3⟩) a h t' := by
  have hrun : ((Scene.start .ready).run
      [.change (.newInstance ⟨9, 0, 9⟩), .change (.register 0 0 (.native 7))]).any (fun c =>
      (c.world.context? 0).any (fun act => decide (act.limits.recursion ≤ act.frames))
        && c.world.holdsFirst (.native 7)) = true := by
    decide +kernel
  obtain ⟨c, hc, hobserved⟩ := (Option.any_eq_true _ _).mp hrun
  obtain ⟨hcontext, hholds⟩ := Bool.and_eq_true_iff.mp hobserved
  obtain ⟨act, hact, hfull⟩ := (Option.any_eq_true _ _).mp hcontext
  obtain ⟨r, owner, hr, -, hx⟩ := World.exists_of_holdsFirst hholds
  have hreferent : c.world.referent ⟨0⟩ = .object r.function := by
    rw [World.referent, hx]
    rfl
  let e : Errand := ⟨0, [.number 3], fun vs =>
    Operation.call (.object r.function) (vs.headD .undefined) vs.tail⟩
  have he : (Request.call 0 ⟨0⟩ (.number 3) []).errand? c.world = some e := by
    rw [Request.errand?, hreferent]
  have hfunction : IsFunctionOf c.world.heap ⟨0, 1⟩ r.function :=
    (Scene.placed_run hc).function 0 (1, r) hr
  let s : State Nat := ⟨c.world, 3⟩
  obtain ⟨-, -, realm, hnature⟩ := hfunction.evolves (e.evolvesHeap_opening act s)
  have htrips : (e.body ((s.world.occupy e.owner).decodeAll act.realm e.args).1).Trips
      Host.bouncer 4 act (e.opening act s) .recursion (e.opening act s) :=
    trips_operationCall hnature (of_decide_eq_true hfull) _ _
  obtain ⟨a, h, t', hsurfaces⟩ := limits_surface_innermost he hact htrips
  exact ⟨c, e, act, a, h, t', hc, hsurfaces⟩

end ScriptBoundary.Boundary
