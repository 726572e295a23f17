import ScriptBoundary.Boundary.Invoke
import ScriptBoundary.Boundary.Surface
import ScriptBoundary.Proofs.AsNative

/-!
# Clients of the C surface

A `Client` is a program that calls the C surface, looks at what the calls give and goes on, with a
state of its own in between. What it passes is raw: descriptors with any tag and any payload, data
and argument lists that may be null, counts that may be negative. Only the instances and handles it
names are there.

A call can be carried out in two ways. `viaSurface` makes it through the C surface. `viaEngine`
decodes what is passed and asks the engine (`ask`): a descriptor stands for a value, and whatever is
null for nothing at all. Its answer is put into the form in which the surface would have given it,
so that a client can go on with it. `Tells` says what such a form must say of an answer, and is
written with the readers of descriptors only.

A `ClientHost` is the wrapper function of such a program, itself a client. Through the surface,
scripts call it by foreign callbacks; without the surface it is the code of native ones.

A client may also look at the figures of an instance (`observe`), at any time. No function of the
surface gives them; they are there to compare two runs in the middle.
-/

namespace ScriptBoundary.Boundary

open Act (request)

/-- A call of the C surface in which no instance and no handle is null. -/
inductive SurfaceCall where
  | installLifecycle (pair : LifecyclePair)
  | instanceNew
  | instanceDrop (i : InstanceId)
  | instanceGlobal (i : InstanceId)
  | instanceEval (i : InstanceId) (source : Option (List UInt8))
  | instanceSetData (i : InstanceId) (slot : UInt32) (data : UInt64)
  | instanceGetData (i : InstanceId) (slot : UInt32)
  | instanceCollectGarbage (i : InstanceId)
  | valueClone (i : Option InstanceId) (h : Handle)
  | valueDrop (h : Handle)
  | stringCreate (i : InstanceId) (bytes : Option (List UInt8))
  | stringToUtf8 (i : InstanceId) (text : Handle)
  | arrayCreate (i : InstanceId)
  | arrayLength (i : InstanceId) (array : Handle)
  | objectCreate (i : InstanceId)
  | objectGet (i : InstanceId) (object : Handle) (key : Descriptor)
  | objectSet (i : InstanceId) (object : Handle) (key value : Descriptor)
  | objectRemove (i : InstanceId) (object : Handle) (key : Descriptor)
  | objectHas (i : InstanceId) (object : Handle) (key : Descriptor)
  | objectKeys (i : InstanceId) (object : Handle) (inherited : UInt8)
  | objectGetIndex (i : InstanceId) (object : Handle) (index : UInt32)
  | objectSetIndex (i : InstanceId) (object : Handle) (index : UInt32) (value : Descriptor)
  | coerceBoolean (i : InstanceId) (v : Descriptor)
  | coerceNumber (i : InstanceId) (v : Descriptor)
  | coerceString (i : InstanceId) (v : Descriptor)
  | functionCall (i : InstanceId) (function : Handle) (this : Descriptor)
      (args : Option (List Descriptor)) (argc : Int)
  | functionCreate (i : InstanceId) (context : UInt64)
  | version

namespace SurfaceCall

/-- What a call gives. -/
@[reducible] def Result : SurfaceCall → Type
  | .instanceNew => InstanceId
  | .installLifecycle _ | .instanceDrop _ | .instanceSetData .. | .instanceCollectGarbage _
  | .valueDrop _ => Unit
  | .instanceGlobal _ | .valueClone .. | .stringCreate .. | .arrayCreate _ | .objectCreate _
  | .objectKeys .. | .functionCreate .. => Option Handle
  | .instanceEval .. | .objectGet .. | .objectSet .. | .objectRemove .. | .objectHas ..
  | .objectGetIndex .. | .objectSetIndex .. | .coerceNumber .. | .coerceString ..
  | .functionCall .. => OutcomeDescriptor
  | .instanceGetData .. => UInt64
  | .stringToUtf8 .. => Option TextView
  | .arrayLength .. => Nat
  | .coerceBoolean .. => UInt8
  | .version => String

variable {σ : Type}

/-- Makes a call through the C surface. -/
def viaSurface : (c : SurfaceCall) → Act σ c.Result
  | .installLifecycle pair => Surface.installLifecycle pair
  | .instanceNew => Surface.instanceNew
  | .instanceDrop i => Surface.instanceDrop (some i)
  | .instanceGlobal i => Surface.instanceGlobal (some i)
  | .instanceEval i source => Surface.instanceEval (some i) source
  | .instanceSetData i slot data => Surface.instanceSetData (some i) slot data
  | .instanceGetData i slot => Surface.instanceGetData (some i) slot
  | .instanceCollectGarbage i => Surface.instanceCollectGarbage (some i)
  | .valueClone i h => Surface.valueClone i (some h)
  | .valueDrop h => Surface.valueDrop (some h)
  | .stringCreate i bytes => Surface.stringCreate (some i) bytes
  | .stringToUtf8 i text => Surface.stringToUtf8 (some i) (some text)
  | .arrayCreate i => Surface.arrayCreate (some i)
  | .arrayLength i array => Surface.arrayLength (some i) (some array)
  | .objectCreate i => Surface.objectCreate (some i)
  | .objectGet i object key => Surface.objectGet (some i) (some object) key
  | .objectSet i object key value => Surface.objectSet (some i) (some object) key value
  | .objectRemove i object key => Surface.objectRemove (some i) (some object) key
  | .objectHas i object key => Surface.objectHas (some i) (some object) key
  | .objectKeys i object inherited => Surface.objectKeys (some i) (some object) inherited
  | .objectGetIndex i object index => Surface.objectGetIndex (some i) (some object) index
  | .objectSetIndex i object index value =>
    Surface.objectSetIndex (some i) (some object) index value
  | .coerceBoolean i v => Surface.coerceBoolean (some i) v
  | .coerceNumber i v => Surface.coerceNumber (some i) v
  | .coerceString i v => Surface.coerceString (some i) v
  | .functionCall i function this args argc =>
    Surface.functionCall (some i) (some function) this args argc
  | .functionCreate i context => Surface.functionCreate (some i) context
  | .version => pure Surface.version

/-- The argument list that is meant: nothing if the count is not positive or the list is null. -/
def decodedArgs (args : Option (List Descriptor)) (argc : Int) : List Value :=
  match args with
  | none => []
  | some ds => if argc ≤ 0 then [] else (ds.take argc.toNat).map Descriptor.toValue

/-- The bytes that are meant: none if the pointer is null. -/
def decodedBytes (bytes : Option (List UInt8)) : List UInt8 :=
  match bytes with
  | none => []
  | some bs => bs

/-- What the engine answers when it is asked for what a call means. -/
@[reducible] def Answer : SurfaceCall → Type
  | .instanceNew => InstanceId
  | .installLifecycle _ | .instanceDrop _ | .instanceSetData .. | .instanceCollectGarbage _
  | .valueDrop _ => Unit
  | .instanceGlobal _ | .valueClone .. | .stringCreate .. | .arrayCreate _ | .objectCreate _
  | .objectKeys .. => Handle
  | .functionCreate .. => Value
  | .instanceEval .. | .objectGet .. | .objectSet .. | .objectRemove .. | .objectHas ..
  | .objectGetIndex .. | .objectSetIndex .. | .coerceNumber .. | .coerceString ..
  | .functionCall .. => Outcome
  | .instanceGetData .. => UInt64
  | .stringToUtf8 .. => String
  | .arrayLength .. => Nat
  | .coerceBoolean .. => Bool
  | .version => String

/-- Asks the engine for what a call means. -/
def ask : (c : SurfaceCall) → Act σ c.Answer
  | .installLifecycle pair => request (.install pair)
  | .instanceNew => request (.newInstance Options.default)
  | .instanceDrop i => request (.destroy i)
  | .instanceGlobal i => request (.global i)
  | .instanceEval i source => request (.eval i (decodedBytes source))
  | .instanceSetData i slot data => request (.setSlot i slot data)
  | .instanceGetData i slot => request (.getSlot i slot)
  | .instanceCollectGarbage i => request (.collect i)
  | .valueClone _ h => request (.clone h)
  | .valueDrop h => request (.release h)
  | .stringCreate i bytes => request (.createString i (decodedBytes bytes))
  | .stringToUtf8 i text => request (.toUtf8 i text)
  | .arrayCreate i => request (.createArray i)
  | .arrayLength i array => request (.arrayLength i array)
  | .objectCreate i => request (.createObject i)
  | .objectGet i object key => request (.get i object key.toValue)
  | .objectSet i object key value => request (.set i object key.toValue value.toValue)
  | .objectRemove i object key => request (.remove i object key.toValue)
  | .objectHas i object key => request (.has i object key.toValue)
  | .objectKeys i object inherited => request (.keys i object (inherited != 0))
  | .objectGetIndex i object index => request (.getIndex i object index)
  | .objectSetIndex i object index value => request (.setIndex i object index value.toValue)
  | .coerceBoolean i v => request (.toBoolean i v.toValue)
  | .coerceNumber i v => request (.toNumber i v.toValue)
  | .coerceString i v => request (.toText i v.toValue)
  | .functionCall i function this args argc =>
    request (.call i function this.toValue (decodedArgs args argc))
  | .functionCreate i context => request (.register i (Callback.foreign i context).asNative)
  | .version => pure Surface.version

/-- The form in which the surface gives an answer. -/
def encode : (c : SurfaceCall) → c.Answer → c.Result
  | .instanceGlobal _, h | .valueClone .., h | .stringCreate .., h | .arrayCreate _, h
  | .objectCreate _, h | .objectKeys .., h => some h
  | .functionCreate .., v => v.handle?
  | .instanceEval .., o | .objectGet .., o | .objectSet .., o | .objectRemove .., o
  | .objectHas .., o | .objectGetIndex .., o | .objectSetIndex .., o | .coerceNumber .., o
  | .coerceString .., o | .functionCall .., o => .ofOutcome o
  | .stringToUtf8 .., t => some (.ofString t)
  | .coerceBoolean .., b => if b then 1 else 0
  | .installLifecycle _, a | .instanceNew, a | .instanceDrop _, a | .instanceSetData .., a
  | .instanceGetData .., a | .instanceCollectGarbage _, a | .valueDrop _, a | .arrayLength .., a
  | .version, a => a

/-- Asks the engine and puts its answer into the form of the surface. -/
def viaEngine (c : SurfaceCall) : Act σ c.Result := do return c.encode (← c.ask)

/-- **Whether the result of a call tells of an answer of the engine**: of an outcome by its flag and
its value, of a text by its bytes and their number, of a truth value by being zero or not, and of an
object by the handle itself. -/
def Tells : (c : SurfaceCall) → c.Result → c.Answer → Prop
  | .instanceGlobal _, p, h | .valueClone .., p, h | .stringCreate .., p, h | .arrayCreate _, p, h
  | .objectCreate _, p, h | .objectKeys .., p, h => p = some h
  | .functionCreate .., p, v => p = v.handle?
  | .instanceEval .., d, o | .objectGet .., d, o | .objectSet .., d, o | .objectRemove .., d, o
  | .objectHas .., d, o | .objectGetIndex .., d, o | .objectSetIndex .., d, o
  | .coerceNumber .., d, o | .coerceString .., d, o | .functionCall .., d, o =>
    (d.isException != 0) = o.isException ∧ d.value.toValue = o.value
  | .stringToUtf8 .., p, t =>
    ∃ v, p = some v ∧ v.text = t ∧ v.length = min t.utf8ByteSize TextView.maxLength
  | .coerceBoolean .., n, b => (n != 0) = b
  | .installLifecycle _, a, b | .instanceNew, a, b | .instanceDrop _, a, b
  | .instanceSetData .., a, b | .instanceGetData .., a, b | .instanceCollectGarbage _, a, b
  | .valueDrop _, a, b | .arrayLength .., a, b | .version, a, b => a = b

end SurfaceCall

/-- The figures of an instance. -/
structure Observation where
  ledger : Ledger
  liveCallbacks : Nat
  finalizedCallbacks : Nat
  externalBytes : Nat
  slots : List (UInt32 × UInt64)

def Instance.observe (x : Instance) : Observation :=
  ⟨x.ledger, x.table.live, x.table.finalized, x.table.externalBytes, x.slots⟩

/-- The figures of an instance are those of its replacement. -/
theorem Instance.observe_asNative (x : Instance) : x.asNative.observe = x.observe := by
  simp only [observe, asNative, CallbackTable.live_asNative]
  rfl

theorem World.observe_asNative (w : World) (i : InstanceId) :
    (w.asNative.live? i).map Instance.observe = (w.live? i).map Instance.observe := by
  rw [live?_asNative, Option.map_map]
  congr 1
  funext x
  exact x.observe_asNative

/-- A program that calls the C surface. -/
inductive Client (σ α : Type) where
  | done (a : α)
  | call (c : SurfaceCall) (next : c.Result → Client σ α)
  | observe (i : InstanceId) (next : Option Observation → Client σ α)
  | read (next : σ → Client σ α)
  | write (s : σ) (next : Client σ α)

/-- The wrapper function of a program that calls the C surface. -/
structure ClientHost (σ : Type) where
  wrapper : LifecyclePair → InstanceId → UInt64 → Descriptor → List Descriptor →
    Client σ OutcomeDescriptor

/-- A way to carry out calls. -/
abbrev Way (σ : Type) := (c : SurfaceCall) → Act σ c.Result

section Way

variable {σ α : Type} (way : Way σ)

/-- A client as a host program, with its calls carried out in some way. -/
def Client.act : Client σ α → Act σ α
  | .done a => .done a
  | .call c next => way c >>= fun a => (next a).act
  | .observe i next => .ask (.inspect i) fun x => (next (x.map Instance.observe)).act
  | .read next => .read fun s => (next s).act
  | .write s next => .write s next.act

/-- What is left of a client after so many steps. -/
def Client.after (invoke : Invoke σ) : Nat → Client σ α → Run σ (Client σ α)
  | 0, m, s => .ok (m, s)
  | _ + 1, .done a, s => .ok (.done a, s)
  | k + 1, .call c next, s => match (way c).run (answer invoke) s with
    | .ok (a, t) => (next a).after invoke k t
    | .error e => .error e
  | k + 1, .observe i next, s =>
    (next ((s.world.live? i).map Instance.observe)).after invoke k s
  | k + 1, .read next, s => (next s.host).after invoke k s
  | k + 1, .write host next, s => next.after invoke k { s with host }

end Way

namespace ClientHost

variable {σ : Type} (host : ClientHost σ)

/-- The wrapper behind the C surface. There are foreign callbacks only. -/
def viaSurface : Host σ where
  native _ _ _ _ := pure .okEmpty
  wrapper pair i context this args :=
    (host.wrapper pair i context this args).act SurfaceCall.viaSurface

/-- What the wrapper does, as the code of a native callback: the values it is handed are put into
descriptors and what it returns is read as a value. Like a foreign callback it needs a pair that is
installed, and cannot be told of too many arguments. -/
def callNative (owner target : InstanceId) (context : UInt64) (this : Value)
    (args : List Value) : Act σ Outcome := do
  match ← request .lifecycle with
  | none => Host.refuse owner "no callback lifecycle functions installed" this args
  | some pair =>
    if Host.maxArguments < args.length then
      Host.refuse owner "too many arguments for a host callback" this args
    else
      let d ← (host.wrapper pair target context (.ofValue this) (args.map .ofValue)).act
        SurfaceCall.viaEngine
      return d.toOutcome

/-- The same code without the C surface. There are native callbacks only. -/
def viaEngine : Host σ where
  native name owner this args :=
    match Callback.ofName name with
    | .native _ => pure .okEmpty
    | .foreign target context => host.callNative owner target context this args
  wrapper _ _ _ _ _ := pure .okEmpty

theorem viaEngine_native (owner : InstanceId) (name : Nat) (this : Value) (args : List Value) :
    host.viaEngine.call owner (Callback.native name).asNative this args = pure .okEmpty := by
  simp only [Callback.asNative, Host.call, viaEngine, Callback.ofName_name]

theorem viaEngine_foreign (owner target : InstanceId) (context : UInt64) (this : Value)
    (args : List Value) :
    host.viaEngine.call owner (Callback.foreign target context).asNative this args =
      host.callNative owner target context this args := by
  simp only [Callback.asNative, Host.call, viaEngine, Callback.ofName_name]

end ClientHost

end ScriptBoundary.Boundary
