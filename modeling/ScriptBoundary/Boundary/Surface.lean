import ScriptBoundary.Boundary.Request

/-!
# The C surface

The same operations for hosts that can pass words and pointers only. Values come and go as
descriptors, instances and handles as pointers that may be null.

Every function first takes over the descriptors it owns, then looks at its pointers. So what the
caller gave up is given up in any case, and a null pointer makes the rest of the call do nothing:
the result is null, zero, false, an empty view, or an undefined that was not thrown.
-/

namespace ScriptBoundary.Boundary

/-- A view of a text for a host without strings of its own. -/
structure TextView where
  text : String
  /-- The length in bytes, as far as a signed 32-bit number goes. -/
  length : Nat
deriving DecidableEq, Repr

namespace TextView

/-- The greatest length a view reports. -/
def maxLength : Nat := twoPow 31 - 1

def ofString (s : String) : TextView := ⟨s, min s.utf8ByteSize maxLength⟩

end TextView

namespace Surface

open Act (request consume)

variable {σ : Type}

/-- Installs the functions that are told of the calls and of the end of foreign callbacks. -/
def installLifecycle (pair : LifecyclePair) : Act σ Unit := request (.install pair)

def instanceNew : Act σ InstanceId := request (.newInstance Options.default)

def instanceDrop : Option InstanceId → Act σ Unit
  | some i => request (.destroy i)
  | none => pure ()

def instanceGlobal : Option InstanceId → Act σ (Option Handle)
  | some i => do return some (← request (.global i))
  | none => return none

/-- Runs source text; a null pointer is the empty text. -/
def instanceEval (i : Option InstanceId) (source : Option (List UInt8)) :
    Act σ OutcomeDescriptor := do
  match i with
  | some i => return .ofOutcome (← request (.eval i (source.getD [])))
  | none => return .okEmpty

def instanceSetData (i : Option InstanceId) (slot : UInt32) (data : UInt64) : Act σ Unit :=
  match i with
  | some i => request (.setSlot i slot data)
  | none => pure ()

def instanceGetData (i : Option InstanceId) (slot : UInt32) : Act σ UInt64 :=
  match i with
  | some i => request (.getSlot i slot)
  | none => pure 0

def instanceCollectGarbage : Option InstanceId → Act σ Unit
  | some i => request (.collect i)
  | none => pure ()

/-- Copies a handle. The instance does not matter. -/
def valueClone (_ : Option InstanceId) : Option Handle → Act σ (Option Handle)
  | some h => do return some (← request (.clone h))
  | none => return none

def valueDrop : Option Handle → Act σ Unit
  | some h => request (.release h)
  | none => pure ()

/-- Makes a string; a null pointer is the empty text. -/
def stringCreate (i : Option InstanceId) (bytes : Option (List UInt8)) :
    Act σ (Option Handle) := do
  match i with
  | some i => return some (← request (.createString i (bytes.getD [])))
  | none => return none

def stringToUtf8 (i : Option InstanceId) (text : Option Handle) : Act σ (Option TextView) := do
  match i, text with
  | some i, some h => return some (.ofString (← request (.toUtf8 i h)))
  | _, _ => return none

def arrayCreate : Option InstanceId → Act σ (Option Handle)
  | some i => do return some (← request (.createArray i))
  | none => return none

def arrayLength (i : Option InstanceId) (array : Option Handle) : Act σ Nat :=
  match i, array with
  | some i, some h => request (.arrayLength i h)
  | _, _ => pure 0

def objectCreate : Option InstanceId → Act σ (Option Handle)
  | some i => do return some (← request (.createObject i))
  | none => return none

/-- Performs an operation with an outcome. If a pointer is null it gives back the values it owns
instead. -/
def operate (i : Option InstanceId) (object : Option Handle) (owned : List Value)
    (operation : InstanceId → Handle → Act σ Outcome) : Act σ OutcomeDescriptor := do
  match i, object with
  | some i, some h => return .ofOutcome (← operation i h)
  | _, _ =>
    Act.forEach Act.releaseValue owned
    return .okEmpty

/-- Converts a value. Without an instance it gives the value back instead. -/
def coerce (i : Option InstanceId) (v : Value) (operation : InstanceId → Act σ Outcome) :
    Act σ OutcomeDescriptor := do
  match i with
  | some i => return .ofOutcome (← operation i)
  | none =>
    Act.releaseValue v
    return .okEmpty

def objectGet (i : Option InstanceId) (object : Option Handle) (key : Descriptor) :
    Act σ OutcomeDescriptor := do
  let key ← consume key
  operate i object [key] fun i h => request (.get i h key)

def objectSet (i : Option InstanceId) (object : Option Handle) (key value : Descriptor) :
    Act σ OutcomeDescriptor := do
  let key ← consume key
  let value ← consume value
  operate i object [key, value] fun i h => request (.set i h key value)

def objectRemove (i : Option InstanceId) (object : Option Handle) (key : Descriptor) :
    Act σ OutcomeDescriptor := do
  let key ← consume key
  operate i object [key] fun i h => request (.remove i h key)

def objectHas (i : Option InstanceId) (object : Option Handle) (key : Descriptor) :
    Act σ OutcomeDescriptor := do
  let key ← consume key
  operate i object [key] fun i h => request (.has i h key)

def objectKeys (i : Option InstanceId) (object : Option Handle) (inherited : UInt8) :
    Act σ (Option Handle) := do
  match i, object with
  | some i, some h => return some (← request (.keys i h (inherited != 0)))
  | _, _ => return none

def objectGetIndex (i : Option InstanceId) (object : Option Handle) (index : UInt32) :
    Act σ OutcomeDescriptor :=
  operate i object [] fun i h => request (.getIndex i h index)

def objectSetIndex (i : Option InstanceId) (object : Option Handle) (index : UInt32)
    (value : Descriptor) : Act σ OutcomeDescriptor := do
  let value ← consume value
  operate i object [value] fun i h => request (.setIndex i h index value)

def coerceBoolean (i : Option InstanceId) (v : Descriptor) : Act σ UInt8 := do
  let v ← consume v
  match i with
  | some i => return if ← request (.toBoolean i v) then 1 else 0
  | none =>
    Act.releaseValue v
    return 0

def coerceNumber (i : Option InstanceId) (v : Descriptor) : Act σ OutcomeDescriptor := do
  let v ← consume v
  coerce i v fun i => request (.toNumber i v)

def coerceString (i : Option InstanceId) (v : Descriptor) : Act σ OutcomeDescriptor := do
  let v ← consume v
  coerce i v fun i => request (.toText i v)

/-- The arguments a call takes over: the first `argc` of them, or none if the count is not positive
or the pointer is null. -/
def takenArgs (args : Option (List Descriptor)) (argc : Int) : List Descriptor :=
  (args.getD []).take argc.toNat

def functionCall (i : Option InstanceId) (function : Option Handle) (this : Descriptor)
    (args : Option (List Descriptor)) (argc : Int) : Act σ OutcomeDescriptor := do
  let this ← consume this
  let args ← Act.gather consume (takenArgs args argc)
  operate i function (this :: args) fun i h => request (.call i h this args)

/-- Makes a function that calls the installed wrapper with a context pointer. -/
def functionCreate (i : Option InstanceId) (context : UInt64) : Act σ (Option Handle) := do
  match i with
  | some i => return (← request (.register i (.foreign i context))).handle?
  | none => return none

def version : String := Platform.version

end Surface

end ScriptBoundary.Boundary
