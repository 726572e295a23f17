import ScriptBoundary.Boundary.Descriptor
import ScriptBoundary.Boundary.World

/-!
# Requests and host programs

A `Request` is one thing a host can ask of the boundary, and `Request.Answer` is the type of what
it gets back. An `Act` is a host program: it asks, looks at the answer and goes on, and it has a
state of its own that the boundary never touches.

A `Host` is the host code that scripts can call: what it does is again an `Act`, so a callback may
ask for anything its caller might have asked for. Since acts are trees, a statement about every
host program, however deep its callbacks nest, is proved by induction.
-/

namespace ScriptBoundary.Boundary

open Script (Limits)

inductive Request where
  | newInstance (limits : Limits)
  | destroy (i : InstanceId)
  | inspect (i : InstanceId)
  | eval (i : InstanceId) (source : List UInt8)
  | global (i : InstanceId)
  | createObject (i : InstanceId)
  | createArray (i : InstanceId)
  | createString (i : InstanceId) (bytes : List UInt8)
  | get (i : InstanceId) (object : Handle) (key : Value)
  | set (i : InstanceId) (object : Handle) (key value : Value)
  | remove (i : InstanceId) (object : Handle) (key : Value)
  | has (i : InstanceId) (object : Handle) (key : Value)
  | getIndex (i : InstanceId) (object : Handle) (index : UInt32)
  | setIndex (i : InstanceId) (object : Handle) (index : UInt32) (value : Value)
  | keys (i : InstanceId) (object : Handle) (inherited : Bool)
  | arrayLength (i : InstanceId) (array : Handle)
  | toUtf8 (i : InstanceId) (text : Handle)
  | call (i : InstanceId) (function : Handle) (this : Value) (args : List Value)
  | register (i : InstanceId) (callback : Callback)
  | toBoolean (i : InstanceId) (v : Value)
  | toNumber (i : InstanceId) (v : Value)
  | toText (i : InstanceId) (v : Value)
  | errorValue (i : InstanceId) (e : BoundaryError)
  | setSlot (i : InstanceId) (slot : UInt32) (data : UInt64)
  | getSlot (i : InstanceId) (slot : UInt32)
  | collect (i : InstanceId)
  | clone (h : Handle)
  | release (h : Handle)
  | sameValue (a b : Handle)
  /-- The name of the type of what a handle refers to. -/
  | typeName (h : Handle)
  | install (pair : LifecyclePair)
  | lifecycle
  | note (e : Event)
  /-- What was dropped so far. -/
  | dropped
  /-- What was logged so far. -/
  | log

/-- What the answer to a request is. -/
@[reducible] def Request.Answer : Request → Type
  | .newInstance _ => InstanceId
  | .inspect _ => Option Instance
  | .eval .. | .get .. | .set .. | .remove .. | .has .. | .getIndex .. | .setIndex .. | .call ..
  | .toNumber .. | .toText .. => Outcome
  | .global _ | .createObject _ | .createArray _ | .createString .. | .keys .. | .clone _ => Handle
  | .register .. | .errorValue .. => Value
  | .arrayLength .. => Nat
  | .toUtf8 .. | .typeName _ => String
  | .toBoolean .. | .sameValue .. => Bool
  | .getSlot .. => UInt64
  | .lifecycle => Option LifecyclePair
  | .dropped => Array Dropped
  | .log => Array Event
  | .destroy _ | .setSlot .. | .collect _ | .release _ | .install _ | .note _ => Unit

/-- The instance a request is addressed to. -/
def Request.addressee? : Request → Option InstanceId
  | .destroy i | .eval i _ | .global i | .createObject i | .createArray i | .createString i _
  | .get i .. | .set i .. | .remove i .. | .has i .. | .getIndex i .. | .setIndex i .. | .keys i ..
  | .arrayLength i _ | .toUtf8 i _ | .call i .. | .register i _ | .toBoolean i _ | .toNumber i _
  | .toText i _ | .errorValue i _ | .setSlot i .. | .getSlot i _ | .collect i => some i
  | _ => none

/-- A host program with a state of type `σ`. -/
inductive Act (σ α : Type) where
  | done (a : α)
  | ask (r : Request) (next : r.Answer → Act σ α)
  | read (next : σ → Act σ α)
  | write (s : σ) (next : Act σ α)

namespace Act

variable {σ α β : Type}

protected def bind (m : Act σ α) (f : α → Act σ β) : Act σ β :=
  match m with
  | .done a => f a
  | .ask r next => .ask r fun a => (next a).bind f
  | .read next => .read fun s => (next s).bind f
  | .write s next => .write s (next.bind f)

instance : Monad (Act σ) where
  pure := .done
  bind := Act.bind

instance [Inhabited α] : Inhabited (Act σ α) := ⟨.done default⟩

/-- Asks for something and gives the answer. -/
def request (r : Request) : Act σ r.Answer := .ask r .done

/-- The state of the host. -/
def state : Act σ σ := .read .done

def modify (f : σ → σ) : Act σ Unit := .read fun s => .write (f s) (.done ())

/-- Does something to each element of a list, in order. -/
def forEach (f : α → Act σ Unit) : List α → Act σ Unit
  | [] => pure ()
  | a :: rest => do
    f a
    forEach f rest

/-- Does something to each element of a list, in order, and gathers the results. -/
def gather (f : α → Act σ β) : List α → Act σ (List β)
  | [] => pure []
  | a :: rest => do
    let b ← f a
    let bs ← gather f rest
    return b :: bs

/-- Gives back the handle a value has. -/
def releaseValue (v : Value) : Act σ Unit :=
  match v.handle? with
  | some h => request (.release h)
  | none => pure ()

/-- A value of the same content, with a handle of its own. -/
def cloneValue (v : Value) : Act σ Value :=
  match v with
  | .composite kind h => do return .composite kind (← request (.clone h))
  | v => return v

/-- Takes a raw value over. One that is malformed counts as undefined. -/
def consume (d : Descriptor) : Act σ Value :=
  match d.toValue? with
  | .ok v => return v
  | .error e => do
    request (.note (.malformed e))
    return .undefined

/-- Takes a raw outcome over. -/
def consumeOutcome (d : OutcomeDescriptor) : Act σ Outcome := do
  return ⟨← consume d.value, d.isException != 0⟩

end Act

/-- The code of a host that scripts can call. -/
structure Host (σ : Type) where
  /-- What a native callback does, on the instance it was registered on. -/
  native : Nat → InstanceId → Value → List Value → Act σ Outcome
  /-- What the wrapper function of a lifecycle pair does, given what a foreign callback was
  registered with. -/
  wrapper : LifecyclePair → InstanceId → UInt64 → Descriptor → List Descriptor →
    Act σ OutcomeDescriptor

namespace Host

variable {σ : Type}

/-- The greatest number of arguments that can be told to a wrapper. -/
def maxArguments : Nat := twoPow 31 - 1

/-- How a foreign callback fails: it throws an error and gives back what it was handed. -/
def refuse (owner : InstanceId) (message : String) (this : Value) (args : List Value) :
    Act σ Outcome := do
  let error ← Act.request (.errorValue owner (.external message))
  Act.forEach Act.releaseValue args
  Act.releaseValue this
  return .exception error

/-- What a foreign callback does: it calls the wrapper of the pair that is installed now. Without
one it fails, and so it does with more arguments than can be told. -/
def callForeign (host : Host σ) (owner target : InstanceId) (context : UInt64) (this : Value)
    (args : List Value) : Act σ Outcome := do
  match ← Act.request .lifecycle with
  | none => refuse owner "no callback lifecycle functions installed" this args
  | some pair =>
    if maxArguments < args.length then
      refuse owner "too many arguments for a host callback" this args
    else
      let d ← host.wrapper pair target context (.ofValue this) (args.map .ofValue)
      Act.consumeOutcome d

/-- What a callback does when a script calls it. -/
def call (host : Host σ) (owner : InstanceId) (c : Callback) (this : Value) (args : List Value) :
    Act σ Outcome :=
  match c with
  | .native name => host.native name owner this args
  | .foreign target context => host.callForeign owner target context this args

end Host

end ScriptBoundary.Boundary
