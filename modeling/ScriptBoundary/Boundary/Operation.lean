import ScriptBoundary.Script.Evaluate

/-!
# Operations as scripts

What an operation does once its arguments have been decoded. Each is a computation like any other:
it may run getters, conversion methods and traps, so it may throw, hit a limit, or call the host.

The objects an operation works on are held while it runs, as the host has given its arguments up.
-/

namespace ScriptBoundary.Boundary.Operation

open Script Script.Comp

/-- `object[key]`. -/
def get (object key : Script.Value) : Comp Script.Value :=
  keeping [object, key] do
    let k ← machine.toKey key
    let r ← toObject object
    machine.get r k

/-- `object[key] = value`, where a write that is refused is ignored. -/
def set (object key value : Script.Value) : Comp Script.Value :=
  keeping [object, key, value] do
    let k ← machine.toKey key
    let r ← toObject object
    let _ ← machine.set r k value
    return .undefined

/-- `delete object[key]`, where a refusal is an error. -/
def remove (object key : Script.Value) : Comp Script.Value :=
  keeping [object, key] do
    let k ← machine.toKey key
    let r ← toObject object
    return .boolean (← machine.deleteOrThrow r k)

/-- `key in object`. -/
def has (object key : Script.Value) : Comp Script.Value :=
  keeping [object, key] do
    let k ← machine.toKey key
    let r ← toObject object
    return .boolean (← machine.has r k)

/-- `object[index]`. -/
def getIndex (object : Script.Value) (index : UInt32) : Comp Script.Value :=
  keeping [object] do
    let r ← toObject object
    machine.get r (Key.ofNat index.toNat)

/-- `object[index] = value`, where a write that is refused is ignored. -/
def setIndex (object : Script.Value) (index : UInt32) (value : Script.Value) : Comp Script.Value :=
  keeping [object, value] do
    let r ← toObject object
    let _ ← machine.set r (Key.ofNat index.toNat) value
    return .undefined

/-- The names from one level of the prototype chain onwards. A level has two queries: the
enumerable names, of which those not seen yet are listed, and all names, which are seen from then
on. The next level is the prototype that an object was given. That of a proxy has nothing to do with
the one its target or its trap would name. -/
def namesFrom (inherited : Bool) : Nat → Ref → List Text → Comp (List Text)
  | 0, _, _ => return []
  | levels + 1, r, seen => do
    let enumerable ← Builtin.ownNames machine (.object r) true
    let listed := (enumerable.map (·.2.2)).filter fun t => !(seen.contains t)
    if !inherited then return listed
    else
      let all ← Builtin.ownNames machine (.object r) false
      match (← readObject r).proto with
      | none => return listed
      | some p => return listed ++ (← namesFrom inherited levels p (seen ++ all.map (·.2.2)))

/-- The property names of an object, its own or those of its prototypes as well. -/
def names (object : Script.Value) (inherited : Bool) : Comp (List Text) :=
  keeping [object] do
    let levels ← inspect (·.cells.size)
    let r ← toObject object
    namesFrom inherited (levels + 2) r []

/-- `names` as an array. -/
def keys (object : Script.Value) (inherited : Bool) : Comp Script.Value := do
  return .object (← newArray ((← names object inherited).map Script.Value.text))

/-- `function.call(this, ...args)`. -/
def call (function this : Script.Value) (args : List Script.Value) : Comp Script.Value :=
  keeping (function :: this :: args) do
    if ← isCallable function then machine.call function this args
    else throwType "value is not a function"

/-- The number a value converts to. -/
def toNumber (v : Script.Value) : Comp Script.Value :=
  keeping [v] do return .number (← machine.toNumber v)

/-- The text a value converts to. -/
def toText (v : Script.Value) : Comp Script.Value :=
  keeping [v] do return .text (← machine.toText v)

end ScriptBoundary.Boundary.Operation
