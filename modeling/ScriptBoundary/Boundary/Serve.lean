import ScriptBoundary.Boundary.Codec
import ScriptBoundary.Boundary.Objects
import ScriptBoundary.Boundary.Operation
import ScriptBoundary.Boundary.Request
import ScriptBoundary.Boundary.Run
import ScriptBoundary.Script.Failure
import ScriptBoundary.Text.Utf8

/-!
# Answering requests

`serve` says what each request does. An operation on scripts takes its arguments over first, all
of them and in their order, so their handles are gone whatever happens next; then it runs a script
computation in the context of its instance; then it hands out the outcome.

A limit ends the operation that was running when it was hit, and surfaces there as a range error.

An instance cannot be destroyed while an operation on it is in progress, by its own callback for
instance: that is a fault. Its end would have to wait there until the last call of its callbacks has
returned, since those calls still need it, and instances that wait for their end are left out.
-/

namespace ScriptBoundary.Boundary

open Script (Activation Comp Completion)

variable {σ : Type}

/-- The outcome of a script computation, with its value handed to the host. A limit has no value of
its own, so it becomes a range error made here. -/
def conclude (invoke : Invoke σ) (i : InstanceId) (act : Activation) :
    Completion Script.Value → Run σ Outcome
  | .value v => do return .ok (← Run.alter (·.encode i v))
  | .thrown v => do return .exception (← Run.alter (·.encode i v))
  | .limit fault => do
    match ← runIn invoke act (Comp.newError .rangeError fault.message) with
    | .value v | .thrown v => return .exception (← Run.alter (·.encode i v))
    | .limit _ => return .exception .undefined

/-- An operation on scripts: takes its arguments over, runs, and hands out the outcome. -/
def operate (invoke : Invoke σ) (i : InstanceId) (args : List Value)
    (body : List Script.Value → Comp Script.Value) : Run σ Outcome :=
  inContext i fun act => do
    let vs ← Run.alter (·.decodeAll act.realm args)
    conclude invoke i act (← runIn invoke act (body vs))

/-- The text of a script value where it has one. -/
def textOf : Completion Script.Value → String
  | .value (.text t) => t.toString
  | _ => ""

/-- The names of an object as an array; the empty array if listing them fails. -/
def listNames (invoke : Invoke σ) (i : InstanceId) (object : Handle) (inherited : Bool) :
    Run σ Handle :=
  inContext i fun act => do
    let v ← Run.view (·.referent object)
    match ← runIn invoke act (Operation.keys v inherited) with
    | .value names => Run.alter (·.newHandle i names)
    | failure =>
      Run.update fun w => w.note (.namesLost (w.heap.describeFailure failure))
      Run.alter (·.newArray i act.realm)

/-- Answers a request to an instance that is there, or to none. -/
def serve (invoke : Invoke σ) : (r : Request) → Run σ r.Answer
  | .newInstance limits => Run.alter (·.newInstance limits)
  | .destroy i => do
    if ← Run.view (·.isBusy i) then throw (.instanceInUse i)
    Run.update (·.destroy i)
  | .inspect i => Run.view (·.live? i)
  | .eval i source =>
    operate invoke i [] fun _ => Script.evalSource (Utf8.decodeString source)
  | .global i => Run.alter fun w =>
    let r := ((w.instance? i).map (·.realm)).getD 0
    w.newHandle i (.object ((w.heap.realm r).base + Script.Intrinsic.globalObject.ctorIdx))
  | .createObject i => inContext i fun act => Run.alter (·.newObject i act.realm)
  | .createArray i => inContext i fun act => Run.alter (·.newArray i act.realm)
  | .createString i bytes =>
    Run.alter (·.newHandle i (Script.Value.ofString (Utf8.decodeString bytes)))
  | .get i object key => do
    let v ← Run.view (·.referent object)
    operate invoke i [key] fun vs => Operation.get v (vs.getD 0 .undefined)
  | .set i object key value => do
    let v ← Run.view (·.referent object)
    operate invoke i [key, value] fun vs =>
      Operation.set v (vs.getD 0 .undefined) (vs.getD 1 .undefined)
  | .remove i object key => do
    let v ← Run.view (·.referent object)
    operate invoke i [key] fun vs => Operation.remove v (vs.getD 0 .undefined)
  | .has i object key => do
    let v ← Run.view (·.referent object)
    operate invoke i [key] fun vs => Operation.has v (vs.getD 0 .undefined)
  | .getIndex i object index => do
    let v ← Run.view (·.referent object)
    operate invoke i [] fun _ => Operation.getIndex v index
  | .setIndex i object index value => do
    let v ← Run.view (·.referent object)
    operate invoke i [value] fun vs => Operation.setIndex v index (vs.getD 0 .undefined)
  | .keys i object inherited => listNames invoke i object inherited
  | .arrayLength i array => do
    if ← Run.view (·.isArray array) then inContext i fun _ => Run.view (·.arrayLength array)
    else return 0
  | .toUtf8 i text => do
    match ← Run.view (·.referent text) with
    | .text t => return t.toString
    | v => inContext i fun act => do return textOf (← runIn invoke act (Operation.toText v))
  | .call i function this args => do
    let v ← Run.view (·.referent function)
    operate invoke i (this :: args) fun vs => Operation.call v (vs.headD .undefined) vs.tail
  | .register i callback => inContext i fun act => Run.alter (·.register i act.realm callback)
  | .toBoolean i v => inContext i fun act => do
    return (← Run.alter (·.decode act.realm v)).truthy
  | .toNumber i v => operate invoke i [v] fun vs => Operation.toNumber (vs.headD .undefined)
  | .toText i v => operate invoke i [v] fun vs => Operation.toText (vs.headD .undefined)
  | .errorValue i e => inContext i fun act => do
    let sort : Script.ErrorClass := if e.isConversion then .typeError else .error
    return (← conclude invoke i act (← runIn invoke act (Comp.newError sort e.message))).value
  | .setSlot i slot data => Run.update (·.setSlot i slot data)
  | .getSlot i slot => Run.view (·.slot i slot)
  | .collect i => Run.update (·.collectFor i)
  | .clone h => Run.alter (·.cloneHandle h)
  | .release h => Run.update (·.releaseHandle h)
  | .sameValue a b => Run.view fun w => Script.Value.sameValue (w.referent a) (w.referent b)
  | .typeName h => Run.view fun w => w.heap.typeName (w.referent h)
  | .install pair => Run.update fun w => { w with lifecycle := some pair }
  | .lifecycle => Run.view (·.lifecycle)
  | .note e => Run.update (·.note e)
  | .dropped => Run.view (·.dropped)
  | .log => Run.view (·.log)

/-- Answers a request. One to an instance that is not there is a fault. -/
def answer (invoke : Invoke σ) (r : Request) : Run σ r.Answer := do
  match r.addressee? with
  | some i =>
    if (← Run.view (·.live? i)).isNone then throw (.noInstance i)
    serve invoke r
  | none => serve invoke r

end ScriptBoundary.Boundary
