import ScriptBoundary.Boundary.Invoke

/-!
# What a run does, as equations

A `Run` is a function of the state, written in `do` notation. The proofs about runs go by cases on
what the parts of a run give, so this file turns each of the recursive definitions into one
equation on states. Nothing after it unfolds `do` notation.

The two equations that matter are `inContext_apply` and `invoke_apply`: they say in which order an
operation finds its context, borrows it and gives it back, and in which order a call of a host
function encodes, enters, runs the host's code, decodes and leaves.
-/

namespace ScriptBoundary.Boundary

open Script (Activation Comp Completion HostCall Program)

variable {σ α β : Type}

namespace Run

@[simp] theorem pure_apply (a : α) (s : State σ) : (pure a : Run σ α) s = .ok (a, s) := rfl

@[simp] theorem throw_apply (e : Fault) (s : State σ) : (throw e : Run σ α) s = .error e := rfl

theorem bind_apply (m : Run σ α) (f : α → Run σ β) (s : State σ) :
    (m >>= f) s = match m s with
      | .ok (a, t) => f a t
      | .error e => .error e := by
  show Except.bind (m s) _ = _
  cases m s <;> rfl

@[simp] theorem view_apply (f : World → α) (s : State σ) : view f s = .ok (f s.world, s) := rfl

@[simp] theorem update_apply (f : World → World) (s : State σ) :
    update f s = .ok ((), { s with world := f s.world }) := rfl

@[simp] theorem alter_apply (f : World → α × World) (s : State σ) :
    alter f s = .ok ((f s.world).1, { s with world := (f s.world).2 }) := rfl

end Run

namespace Act

variable (respond : (r : Request) → Run σ r.Answer)

theorem run_ask (r : Request) (next : r.Answer → Act σ α) (s : State σ) :
    (Act.ask r next).run respond s = match respond r s with
      | .ok (a, t) => (next a).run respond t
      | .error e => .error e := by
  cases h : respond r s <;> simp only [Act.run, h]

theorem run_request (r : Request) (s : State σ) :
    (Act.request r).run respond s = respond r s := by
  rw [request, run_ask]
  cases respond r s <;> rfl

theorem run_bind (m : Act σ α) (f : α → Act σ β) (s : State σ) :
    (m >>= f).run respond s = match m.run respond s with
      | .ok (a, t) => (f a).run respond t
      | .error e => .error e := by
  show (m.bind f).run respond s = _
  induction m generalizing s with
  | done a => rfl
  | ask r next ih =>
    simp only [Act.bind, run_ask]
    cases respond r s with
    | error e => rfl
    | ok p => exact ih p.1 p.2
  | read next ih => exact ih s.host s
  | write host next ih => exact ih { s with host }

@[simp] theorem run_pure (a : α) (s : State σ) :
    (pure a : Act σ α).run respond s = .ok (a, s) := rfl

end Act

theorem runProgram_edit (invoke : Invoke σ) (e : Script.Edit) (next : Nat → Program)
    (s : State σ) :
    runProgram invoke (.edit e next) s = runProgram invoke (next (s.world.heap.apply e).2)
      { s with world := { s.world with heap := (s.world.heap.apply e).1 } } := rfl

theorem runProgram_call (invoke : Invoke σ) (c : HostCall)
    (next : Completion Script.Value → Program) (s : State σ) :
    runProgram invoke (.call c next) s = match invoke c s with
      | .ok (result, t) => runProgram invoke (next result) t
      | .error e => .error e := by
  cases h : invoke c s <;> simp only [runProgram, h]

/-- The end of an operation that has borrowed an instance's own context. -/
def handBack (i : InstanceId) : Except Fault (α × State σ) → Except Fault (α × State σ)
  | .ok (a, t) => .ok (a, { t with world := t.world.giveBack i })
  | .error e => .error e

/-- **Finding a context.** A lent context is used as it is by then. The instance's own is borrowed
first and given back afterwards, and an operation that finds it borrowed does not begin. -/
theorem inContext_apply (i : InstanceId) (body : Activation → Run σ α) (s : State σ) :
    inContext i body s = match s.world.live? i with
      | none => .error (.noInstance i)
      | some x => match x.lent with
        | some act => body (s.world.current act) s
        | none =>
          if x.borrowed then .error (.contextInUse i)
          else handBack i
            (body (x.root i s.world.converting) { s with world := s.world.borrow i }) := by
  simp only [inContext, Run.bind_apply, Run.view_apply]
  cases s.world.live? i with
  | none => rfl
  | some x =>
    cases hl : x.lent with
    | some act => simp only [hl, Run.bind_apply, Run.view_apply]
    | none =>
      simp only [hl]
      split
      · simp [Run.bind_apply]
      · simp only [Run.bind_apply, Run.pure_apply, Run.view_apply, Run.update_apply]
        show (match body (x.root i s.world.converting) { s with world := s.world.borrow i } with
          | .ok (a, t) => _
          | .error e => _) = _
        cases body (x.root i s.world.converting) { s with world := s.world.borrow i } <;> rfl

section inContext

variable {i : InstanceId} {x : Instance} {body : Activation → Run σ α} {s : State σ}

theorem inContext_gone (h : s.world.live? i = none) :
    inContext i body s = .error (.noInstance i) := by
  rw [inContext_apply, h]

theorem inContext_lent (h : s.world.live? i = some x) {act : Activation}
    (hl : x.lent = some act) : inContext i body s = body (s.world.current act) s := by
  rw [inContext_apply, h]
  dsimp only
  rw [hl]

theorem inContext_borrowed (h : s.world.live? i = some x) (hl : x.lent = none)
    (hb : x.borrowed = true) : inContext i body s = .error (.contextInUse i) := by
  rw [inContext_apply, h]
  dsimp only
  rw [hl]
  exact if_pos hb

theorem inContext_own (h : s.world.live? i = some x) (hl : x.lent = none)
    (hb : x.borrowed = false) :
    inContext i body s = handBack i
      (body (x.root i s.world.converting) { s with world := s.world.borrow i }) := by
  rw [inContext_apply, h]
  dsimp only
  rw [hl, hb]
  rfl

end inContext

/-- **A call of a host function.** The equation names the worlds in between: the one in which the
host's code begins, and the one it leaves behind. -/
theorem invoke_apply (host : Host σ) (inner : Invoke σ) (c : HostCall) (s : State σ) :
    invoke host inner c s = match s.world.callbackOf c.anchor with
      | none => .ok (.value .undefined, s)
      | some callback =>
        let this := s.world.encode c.anchor.owner c.this
        let args := this.2.encodeAll c.anchor.owner c.args
        let before := (args.2.instance? c.anchor.owner).bind (·.lent)
        match (host.call c.anchor.owner callback this.1 args.1).run (answer inner)
            { s with world := args.2.enter ⟨c.anchor, c.activation⟩ } with
        | .error e => .error e
        | .ok (outcome, t) =>
          let v := t.world.decode c.activation.realm outcome.value
          .ok (if outcome.isException then .thrown v.1 else .value v.1,
            { t with world := v.2.leave c.anchor before }) := by
  simp only [invoke, Run.bind_apply, Run.view_apply]
  cases s.world.callbackOf c.anchor with
  | none => rfl
  | some callback =>
    simp only [Run.bind_apply, Run.alter_apply, Run.view_apply, Run.update_apply]
    cases (host.call c.anchor.owner callback _ _).run (answer inner) _ <;> rfl

theorem answer_apply (invoke : Invoke σ) (r : Request) (s : State σ) :
    answer invoke r s = match r.addressee? with
      | some i => if (s.world.live? i).isNone then .error (.noInstance i) else serve invoke r s
      | none => serve invoke r s := by
  rw [answer]
  cases r.addressee? with
  | none => rfl
  | some i =>
    simp only [Run.bind_apply, Run.view_apply]
    split <;> rfl

end ScriptBoundary.Boundary
