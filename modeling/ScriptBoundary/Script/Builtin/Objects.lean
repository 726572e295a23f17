import ScriptBoundary.Script.Builtin.Basic

/-!
# The object constructor and prototype
-/

namespace ScriptBoundary.Script

open Script.Comp

namespace Builtin

/-- The word in `[object …]` for an object without a tag of its own. -/
def classWord (r : Ref) : Comp String := do
  if ← isArray (.object r) then return "Array"
  else
    let n := (← readObject r).nature
    return match n with
      | .arguments _ => "Arguments"
      | .error => "Error"
      | .booleanBox _ => "Boolean"
      | .numberBox _ => "Number"
      | .stringBox _ => "String"
      | .date _ => "Date"
      | n => if n.isCallable then "Function" else "Object"

/-- The text of `Object.prototype.toString`. -/
def describeObject (m : Machine) (this : Value) : Comp Value := do
  match this with
  | .undefined => return Value.ofString "[object Undefined]"
  | .null => return Value.ofString "[object Null]"
  | v =>
    let r ← toObject v
    let word ← classWord r
    match ← m.get r (.symbol Symbol.toStringTag) with
    | .text t => return .text ("[object " ++ t ++ "]")
    | _ => return Value.ofString ("[object " ++ word ++ "]")

/-- The own text keys of a value, enumerable ones only if asked. -/
def ownNames (m : Machine) (v : Value) (enumerableOnly : Bool) : Comp (List (Ref × Key × Text)) := do
  let r ← toObject v
  let ks ← m.ownKeys r
  let names := ks.filterMap fun k => k.text?.map fun t => (r, k, t)
  if !enumerableOnly then return names
  else
    foldList (fun out (r, k, t) => do
      match ← m.getOwn r k with
      | some s => return if s.enumerable then out ++ [(r, k, t)] else out
      | none => return out) [] names

/-- Defines every property that the enumerable own properties of an object describe. -/
def defineAll (m : Machine) (r : Ref) (source : Value) : Comp Unit := do
  let p ← toObject source
  let ks ← m.ownKeys p
  let ds ← foldList (fun out k => do
    match ← m.getOwn p k with
    | some s =>
      if s.enumerable then return out ++ [(k, ← descriptorOf m (← m.get p k))] else return out
    | none => return out) [] ks
  forList (fun (k, d) => m.defineOrThrow r k d) ds

/-- Closes an object and fixes its properties; frozen ones cannot be written either. -/
def setIntegrity (m : Machine) (r : Ref) (frozen : Bool) : Comp Bool := do
  if !(← m.preventExtensions r) then return false
  else
    let ks ← m.ownKeys r
    forList (fun k => do
      match ← m.getOwn r k with
      | none => return
      | some s =>
        let d : Descriptor :=
          if frozen && !s.isAccessor then { configurable := some false, writable := some false }
          else { configurable := some false }
        m.defineOrThrow r k d) ks
    return true

/-- Whether an object is closed and its properties are fixed. -/
def hasIntegrity (m : Machine) (r : Ref) (frozen : Bool) : Comp Bool := do
  if ← m.isExtensible r then return false
  else
    let ks ← m.ownKeys r
    foldList (fun ok k => do
      match ← m.getOwn r k with
      | none => return ok
      | some s => return ok && !s.configurable && !(frozen && !s.isAccessor && s.isWritable)) true ks

/-- Copies the enumerable own properties of sources onto an object by assignment. -/
def assignAll (m : Machine) (r : Ref) (sources : List Value) : Comp Unit :=
  forList (fun source => do
    if source.isNullish then return
    let p ← toObject source
    let ks ← m.ownKeys p
    forList (fun k => do
      match ← m.getOwn p k with
      | some s => if s.enumerable then m.put r k (← m.get p k)
      | none => return) ks) sources

/-- The prototype a value stands for as an argument. -/
def protoArgument? : Value → Option (Option Ref)
  | .object p => some (some p)
  | .null => some none
  | _ => none

def objects : List Builtin :=
  [constructor .objectConstructor (some .objectPrototype) "Object" 1 fun m c => do
      if c.newTarget.any (· != c.callee) then c.make m .plain .objectPrototype
      else if (c.arg 0).isNullish then return .object (← newPlain)
      else return .object (← toObject (c.arg 0)),
   method .objectConstructor "Object.create" 2 fun m c => do
      match protoArgument? (c.arg 0) with
      | none => throwType "Object prototype may only be an Object or null: undefined"
      | some p =>
        let r ← newObject .plain p ∅
        unless (c.arg 1).isUndefined do defineAll m r (c.arg 1)
        return .object r,
   method .objectConstructor "Object.getPrototypeOf" 1 fun m c => do
      return protoValue (← m.protoOf (← toObject (c.arg 0))),
   method .objectConstructor "Object.setPrototypeOf" 2 fun m c => do
      match protoArgument? (c.arg 1), c.arg 0 with
      | none, _ => throwType "expected an object or null"
      | some p, .object r =>
        if ← m.setProtoOf r p then return c.arg 0
        else throwType "can't set the prototype of this object"
      | _, v =>
        if v.isNullish then throwType "cannot convert 'null' or 'undefined' to object" else return v,
   method .objectConstructor "Object.getOwnPropertyDescriptor" 2 fun m c => do
      let r ← toObject (c.arg 0)
      match ← m.getOwn r (← m.toKey (c.arg 1)) with
      | some s => describe s
      | none => return .undefined,
   method .objectConstructor "Object.getOwnPropertyDescriptors" 1 fun m c => do
      let r ← toObject (c.arg 0)
      let out ← newPlain
      forList (fun k => do
        match ← m.getOwn r k with
        | some s => m.createOrThrow out k (← describe s)
        | none => return) (← m.ownKeys r)
      return .object out,
   method .objectConstructor "Object.getOwnPropertyNames" 1 fun m c => do
      return .object (← newArray ((← ownNames m (c.arg 0) false).map fun (_, _, t) => .text t)),
   method .objectConstructor "Object.getOwnPropertySymbols" 1 fun m c => do
      let ks ← m.ownKeys (← toObject (c.arg 0))
      return .object (← newArray (ks.filterMap fun k => match k with
        | .symbol s => some (.symbol s)
        | _ => none)),
   method .objectConstructor "Object.keys" 1 fun m c => do
      return .object (← newArray ((← ownNames m (c.arg 0) true).map fun (_, _, t) => .text t)),
   method .objectConstructor "Object.values" 1 fun m c => do
      let names ← ownNames m (c.arg 0) true
      return .object (← newArray (← mapList (fun (r, k, _) => m.get r k) names)),
   method .objectConstructor "Object.entries" 1 fun m c => do
      let names ← ownNames m (c.arg 0) true
      let pairs ← mapList (fun (r, k, t) => do
        return .object (← newArray [.text t, ← m.get r k])) names
      return .object (← newArray pairs),
   method .objectConstructor "Object.assign" 2 fun m c => do
      let r ← toObject (c.arg 0)
      assignAll m r c.args.tail
      return .object r,
   method .objectConstructor "Object.defineProperty" 3 fun m c => do
      match c.arg 0 with
      | .object r =>
        let k ← m.toKey (c.arg 1)
        m.defineOrThrow r k (← descriptorOf m (c.arg 2))
        return c.arg 0
      | _ => throwType "Cannot define property of non-object",
   method .objectConstructor "Object.defineProperties" 2 fun m c => do
      match c.arg 0 with
      | .object r =>
        defineAll m r (c.arg 1)
        return c.arg 0
      | _ => throwType "Expected an object",
   method .objectConstructor "Object.freeze" 1 fun m c => do
      match c.arg 0 with
      | .object r =>
        if ← setIntegrity m r true then return c.arg 0 else throwType "cannot freeze object"
      | v => return v,
   method .objectConstructor "Object.seal" 1 fun m c => do
      match c.arg 0 with
      | .object r =>
        if ← setIntegrity m r false then return c.arg 0 else throwType "cannot seal object"
      | v => return v,
   method .objectConstructor "Object.preventExtensions" 1 fun m c => do
      match c.arg 0 with
      | .object r =>
        if ← m.preventExtensions r then return c.arg 0
        else throwType "cannot prevent extensions"
      | v => return v,
   method .objectConstructor "Object.isFrozen" 1 fun m c => do
      match c.arg 0 with
      | .object r => return .boolean (← hasIntegrity m r true)
      | _ => return .boolean true,
   method .objectConstructor "Object.isSealed" 1 fun m c => do
      match c.arg 0 with
      | .object r => return .boolean (← hasIntegrity m r false)
      | _ => return .boolean true,
   method .objectConstructor "Object.isExtensible" 1 fun m c => do
      match c.arg 0 with
      | .object r => return .boolean (← m.isExtensible r)
      | _ => return .boolean false,
   method .objectConstructor "Object.is" 2 fun _ c => do
      return .boolean (Value.sameValue (c.arg 0) (c.arg 1)),
   method .objectConstructor "Object.fromEntries" 1 fun m c => do
      let out ← newPlain
      forList (fun e => do
        let k ← m.toKey (← m.getOf e (Key.ofNat 0))
        m.createOrThrow out k (← m.getOf e (Key.ofNat 1))) (← m.listOfIterable (c.arg 0))
      return .object out,
   method .objectConstructor "Object.hasOwn" 2 fun m c => do
      let r ← toObject (c.arg 0)
      return .boolean (← m.getOwn r (← m.toKey (c.arg 1))).isSome,
   method .objectPrototype "Object.prototype.hasOwnProperty" 1 fun m c => do
      let k ← m.toKey (c.arg 0)
      let r ← toObject c.this
      return .boolean (← m.getOwn r k).isSome,
   method .objectPrototype "Object.prototype.isPrototypeOf" 1 fun m c => do
      match c.arg 0 with
      | .object r =>
        let p ← toObject c.this
        let size ← inspect (·.cells.size)
        return .boolean (← m.inherits p (size + 1) r)
      | _ => return .boolean false,
   method .objectPrototype "Object.prototype.propertyIsEnumerable" 1 fun m c => do
      let k ← m.toKey (c.arg 0)
      let r ← toObject c.this
      return .boolean ((← m.getOwn r k).any Slot.enumerable),
   method .objectPrototype "Object.prototype.toLocaleString" 0 fun m c => do
      m.call (← m.getOf c.this (Key.ofString "toString")) c.this [],
   method .objectPrototype "Object.prototype.toString" 0 fun m c => describeObject m c.this,
   method .objectPrototype "Object.prototype.valueOf" 0 fun _ c => do
      return .object (← toObject c.this),
   getter .objectPrototype "Object.prototype.get __proto__" (Key.ofString "__proto__") fun m c => do
      return protoValue (← m.protoOf (← toObject c.this)),
   setter .objectPrototype "Object.prototype.set __proto__" (Key.ofString "__proto__") fun m c => do
      if c.this.isNullish then throwType "__proto__ called on null or undefined"
      else
        match protoArgument? (c.arg 0), c.this with
        | some p, .object r =>
          if ← m.setProtoOf r p then return .undefined
          else throwType "__proto__ called on null or undefined"
        | _, _ => return .undefined]

end Builtin

end ScriptBoundary.Script
