import ScriptBoundary.Proofs.Desk
import ScriptBoundary.Proofs.Equations

/-!
# What a request does in its context

Most requests do their work in a context, and it depends on the calls in progress which context
that is. `Request.work` is the work alone: what is done once a context has been found. A request has
none if it can be answered without a context, and for two of them that depends on what a handle
refers to.

That a request is answered by doing its work in the context found for it is `answer_eq_inContext`,
so a statement about requests comes down to one about their work.
-/

namespace ScriptBoundary.Boundary

open Script (Activation Comp)

variable {σ : Type}

/-- What `operate` does in the context it has found. -/
def operateIn (invoke : Invoke σ) (i : InstanceId) (args : List Value)
    (body : List Script.Value → Comp Script.Value) (act : Activation) : Run σ Outcome := do
  let vs ← Run.alter (·.decodeAll act.realm args)
  conclude invoke i act (← runIn invoke act (body vs))

/-- What a request does in the context it gets, or nothing if it needs none. Handles passed by
reference are looked up before the context is. -/
def Request.work (invoke : Invoke σ) (w : World) :
    (r : Request) → Option (Activation → Run σ r.Answer)
  | .eval i source =>
    some (operateIn invoke i [] fun _ => Script.evalSource (Utf8.decodeString source))
  | .createObject i => some fun act => Run.alter (·.newObject i act.realm)
  | .createArray i => some fun act => Run.alter (·.newArray i act.realm)
  | .get i object key =>
    some (operateIn invoke i [key] fun vs =>
      Operation.get (w.referent object) (vs.getD 0 .undefined))
  | .set i object key value =>
    some (operateIn invoke i [key, value] fun vs =>
      Operation.set (w.referent object) (vs.getD 0 .undefined) (vs.getD 1 .undefined))
  | .remove i object key =>
    some (operateIn invoke i [key] fun vs =>
      Operation.remove (w.referent object) (vs.getD 0 .undefined))
  | .has i object key =>
    some (operateIn invoke i [key] fun vs =>
      Operation.has (w.referent object) (vs.getD 0 .undefined))
  | .getIndex i object index =>
    some (operateIn invoke i [] fun _ => Operation.getIndex (w.referent object) index)
  | .setIndex i object index value =>
    some (operateIn invoke i [value] fun vs =>
      Operation.setIndex (w.referent object) index (vs.getD 0 .undefined))
  | .keys i object inherited => some fun act => do
    let v ← Run.view (·.referent object)
    match ← runIn invoke act (Operation.keys v inherited) with
    | .value names => Run.alter (·.newHandle i names)
    | failure =>
      Run.update fun w => w.note (.namesLost (w.heap.describeFailure failure))
      Run.alter (·.newArray i act.realm)
  | .arrayLength _ array =>
    if w.isArray array then some fun _ => Run.view (·.arrayLength array) else none
  | .toUtf8 _ text =>
    match w.referent text with
    | .text _ => none
    | v => some fun act => do return textOf (← runIn invoke act (Operation.toText v))
  | .call i function this args =>
    some (operateIn invoke i (this :: args) fun vs =>
      Operation.call (w.referent function) (vs.headD .undefined) vs.tail)
  | .register i callback => some fun act => Run.alter (·.register i act.realm callback)
  | .toBoolean _ v => some fun act => do return (← Run.alter (·.decode act.realm v)).truthy
  | .toNumber i v =>
    some (operateIn invoke i [v] fun vs => Operation.toNumber (vs.headD .undefined))
  | .toText i v => some (operateIn invoke i [v] fun vs => Operation.toText (vs.headD .undefined))
  | .errorValue i e => some fun act => do
    let sort : Script.ErrorClass := if e.isConversion then .typeError else .error
    return (← conclude invoke i act (← runIn invoke act (Comp.newError sort e.message))).value
  | _ => none

/-- A request to an instance that is alive is served. -/
theorem answer_of_alive {invoke : Invoke σ} {r : Request} {i : InstanceId} {s : State σ}
    (hi : r.addressee? = some i) (halive : s.world.isAlive i = true) :
    answer invoke r s = serve invoke r s := by
  obtain ⟨x, hx⟩ := Option.isSome_iff_exists.mp (World.isAlive_eq_isSome_live? ▸ halive)
  rw [answer_apply, hi]
  dsimp only
  rw [hx]
  rfl

/-- **A request that needs a context** is answered by doing its work in the context found for it. -/
theorem answer_eq_inContext {invoke : Invoke σ} {r : Request} {i : InstanceId} {s : State σ}
    {f : Activation → Run σ r.Answer} (hi : r.addressee? = some i)
    (hf : r.work invoke s.world = some f) : answer invoke r s = inContext i f s := by
  rw [answer_apply, hi]
  dsimp only
  cases hx : s.world.live? i with
  | none =>
    rw [inContext_gone hx]
    rfl
  | some x =>
    rw [if_neg nofun]
    cases r with
    | arrayLength j array =>
      cases hi
      simp only [Request.work] at hf
      split at hf
      · next ha =>
        cases hf
        simp only [serve, Run.bind_apply, Run.view_apply, ha, if_true]
      · cases hf
    | toUtf8 j text =>
      cases hi
      simp only [Request.work] at hf
      split at hf
      · cases hf
      · next v hv =>
        cases hf
        simp only [serve, Run.bind_apply, Run.view_apply]
    | _ =>
      first
      | cases hi
        cases hf
        rfl
      | cases hf

end ScriptBoundary.Boundary
