import ScriptBoundary.Script.Builtin.Arrays

/-!
# Maps, sets, proxies and reflection

Maps and sets keep their entries in the order in which they were added. A deleted entry leaves a
gap, so that an iterator that stands behind it does not lose its place.
-/

namespace ScriptBoundary.Script

open Script.Comp

namespace Builtin

/-- A key as maps and sets compare it: the two zeros are one. -/
def normalKey : Value → Value
  | .number x => .number (if x == 0.0 then 0.0 else x)
  | v => v

/-- The position of a key in a map. -/
def mapIndex? (entries : Array (Option (Value × Value))) (k : Value) : Option Nat :=
  entries.findIdx? fun e => e.any fun e => Value.sameValueZero e.1 k

/-- The position of a value in a set. -/
def setIndex? (entries : Array (Option Value)) (v : Value) : Option Nat :=
  entries.findIdx? fun e => e.any fun w => Value.sameValueZero w v

def thisMap (c : BuiltinCall) : Comp (Ref × Array (Option (Value × Value))) := do
  match c.this, ← c.thisNature with
  | .object r, .map entries => return (r, entries)
  | _, _ => throwType "'this' is not a Map"

def thisSet (c : BuiltinCall) : Comp (Ref × Array (Option Value)) := do
  match c.this, ← c.thisNature with
  | .object r, .set entries => return (r, entries)
  | _, _ => throwType "'this' is not a Set"

/-- A constructor of a collection that is filled through its own method. -/
def collection (self proto : Intrinsic) (name adder : String) (nature : Nature) (pairs : Bool) :
    Builtin :=
  constructor self (some proto) name 0 fun m c => do
    if c.newTarget.isNone then throwType ("calling a builtin " ++ name ++ " constructor without new is forbidden")
    else
      let v ← c.make m nature proto
      if (c.arg 0).isNullish then return v
      else
        let add ← m.getOf v (Key.ofString adder)
        requireCallable add
        forList (fun item => do
          if pairs then
            let k ← m.getOf item (Key.ofNat 0)
            let _ ← m.call add v [k, ← m.getOf item (Key.ofNat 1)]
          else
            let _ ← m.call add v [item]) (← keeping [v] (m.listOfIterable (c.arg 0)))
        return v

def collections : List Builtin :=
  [collection .mapConstructor .mapPrototype "Map" "set" (.map #[]) true,
   collection .setConstructor .setPrototype "Set" "add" (.set #[]) false,
   collection .weakMapConstructor .weakMapPrototype "WeakMap" "set" (.map #[]) true,
   collection .weakSetConstructor .weakSetPrototype "WeakSet" "add" (.set #[]) false,
   method .mapPrototype "Map.prototype.get" 1 fun _ c => do
      let (_, es) ← thisMap c
      let found := ((mapIndex? es (c.arg 0)).bind fun i => es[i]?).join
      return ((found.map (·.2)).getD .undefined),
   method .mapPrototype "Map.prototype.has" 1 fun _ c => do
      let (_, es) ← thisMap c
      return .boolean (mapIndex? es (c.arg 0)).isSome,
   method .mapPrototype "Map.prototype.set" 2 fun _ c => do
      let (r, es) ← thisMap c
      let entry := some (normalKey (c.arg 0), c.arg 1)
      let es := match mapIndex? es (c.arg 0) with
        | some i => es.setIfInBounds i entry
        | none => es.push entry
      performOnly (.setNature r (.map es))
      return c.this,
   method .mapPrototype "Map.prototype.delete" 1 fun _ c => do
      let (r, es) ← thisMap c
      match mapIndex? es (c.arg 0) with
      | some i =>
        performOnly (.setNature r (.map (es.setIfInBounds i none)))
        return .boolean true
      | none => return .boolean false,
   method .mapPrototype "Map.prototype.clear" 0 fun _ c => do
      let (r, es) ← thisMap c
      performOnly (.setNature r (.map (es.map fun _ => none)))
      return .undefined,
   method .mapPrototype "Map.prototype.forEach" 1 fun m c => do
      let (r, es) ← thisMap c
      requireCallable (c.arg 0)
      forList (fun (k, v) => do
        let _ ← m.call (c.arg 0) (c.arg 1) [v, k, .object r]) (es.toList.filterMap id)
      return .undefined,
   getter .mapPrototype "Map.prototype.get size" (Key.ofString "size") fun _ c => do
      let (_, es) ← thisMap c
      return Value.ofNat (es.toList.filterMap id).length,
   method .mapPrototype "Map.prototype.entries" 0 fun _ c => do
      let _ ← thisMap c
      newListIterator c.this 2,
   method .mapPrototype "Map.prototype.keys" 0 fun _ c => do
      let _ ← thisMap c
      newListIterator c.this 1,
   method .mapPrototype "Map.prototype.values" 0 fun _ c => do
      let _ ← thisMap c
      newListIterator c.this 0,
   symbolMethod .mapPrototype "Map.prototype[iterator]" Symbol.iterator 0 fun _ c => do
      let _ ← thisMap c
      newListIterator c.this 2,
   method .setPrototype "Set.prototype.add" 1 fun _ c => do
      let (r, es) ← thisSet c
      match setIndex? es (c.arg 0) with
      | some _ => return c.this
      | none =>
        performOnly (.setNature r (.set (es.push (some (normalKey (c.arg 0))))))
        return c.this,
   method .setPrototype "Set.prototype.has" 1 fun _ c => do
      let (_, es) ← thisSet c
      return .boolean (setIndex? es (c.arg 0)).isSome,
   method .setPrototype "Set.prototype.delete" 1 fun _ c => do
      let (r, es) ← thisSet c
      match setIndex? es (c.arg 0) with
      | some i =>
        performOnly (.setNature r (.set (es.setIfInBounds i none)))
        return .boolean true
      | none => return .boolean false,
   method .setPrototype "Set.prototype.clear" 0 fun _ c => do
      let (r, es) ← thisSet c
      performOnly (.setNature r (.set (es.map fun _ => none)))
      return .undefined,
   method .setPrototype "Set.prototype.forEach" 1 fun m c => do
      let (r, es) ← thisSet c
      requireCallable (c.arg 0)
      forList (fun v => do
        let _ ← m.call (c.arg 0) (c.arg 1) [v, v, .object r]) (es.toList.filterMap id)
      return .undefined,
   getter .setPrototype "Set.prototype.get size" (Key.ofString "size") fun _ c => do
      let (_, es) ← thisSet c
      return Value.ofNat (es.toList.filterMap id).length,
   method .setPrototype "Set.prototype.values" 0 fun _ c => do
      let _ ← thisSet c
      newListIterator c.this 0,
   symbolMethod .setPrototype "Set.prototype[iterator]" Symbol.iterator 0 fun _ c => do
      let _ ← thisSet c
      newListIterator c.this 0]

/-- The object an argument of reflection has to be. -/
def targetOf (v : Value) : Comp Ref := do
  match v with
  | .object r => return r
  | _ => throwType "target must be an object"

def reflection : List Builtin :=
  [constructor .proxyConstructor none "Proxy" 2 fun _ c => do
      if c.newTarget.isNone then throwType "Proxy constructor called on undefined new target"
      else
        match c.arg 0, c.arg 1 with
        | .object target, .object handler =>
          let n := (← readObject target).nature
          let proxy : Nature := .proxy (some (target, handler)) n.isCallable n.isConstructor
          return .object (← newObject proxy (some (← intrinsic .objectPrototype)) ∅)
        | .object _, _ => throwType "Proxy constructor called with invalid handler"
        | _, _ => throwType "Proxy constructor called with invalid target",
   method .reflect "Reflect.apply" 3 fun m c => do
      requireCallable (c.arg 0)
      match c.arg 2 with
      | .object r => m.call (c.arg 0) (c.arg 1) (← m.listOf r)
      | _ => throwType "args list must be an object",
   method .reflect "Reflect.construct" 2 fun m c => do
      match c.arg 0, c.arg 1 with
      | .object f, .object list =>
        let newTarget := if c.args.length < 3 then c.arg 0 else c.arg 2
        if !(← isConstructor (.object f)) then throwType "target must be a constructor"
        else if !(← isConstructor newTarget) then throwType "newTarget must be a constructor"
        else m.construct f (← m.listOf list) (newTarget.ref?.getD f)
      | _, _ => throwType "target must be a constructor",
   method .reflect "Reflect.defineProperty" 3 fun m c => do
      let r ← targetOf (c.arg 0)
      let k ← m.toKey (c.arg 1)
      return .boolean (← m.define r k (← descriptorOf m (c.arg 2))),
   method .reflect "Reflect.deleteProperty" 2 fun m c => do
      let r ← targetOf (c.arg 0)
      return .boolean (← m.delete r (← m.toKey (c.arg 1))),
   method .reflect "Reflect.get" 2 fun m c => do
      let r ← targetOf (c.arg 0)
      let k ← m.toKey (c.arg 1)
      m.getFor r k (if c.args.length < 3 then c.arg 0 else c.arg 2),
   method .reflect "Reflect.getOwnPropertyDescriptor" 2 fun m c => do
      let r ← targetOf (c.arg 0)
      match ← m.getOwn r (← m.toKey (c.arg 1)) with
      | some s => describe s
      | none => return .undefined,
   method .reflect "Reflect.getPrototypeOf" 1 fun m c => do
      return protoValue (← m.protoOf (← targetOf (c.arg 0))),
   method .reflect "Reflect.has" 2 fun m c => do
      let r ← targetOf (c.arg 0)
      return .boolean (← m.has r (← m.toKey (c.arg 1))),
   method .reflect "Reflect.isExtensible" 1 fun m c => do
      return .boolean (← m.isExtensible (← targetOf (c.arg 0))),
   method .reflect "Reflect.ownKeys" 1 fun m c => do
      return .object (← newArray ((← m.ownKeys (← targetOf (c.arg 0))).map Key.toValue)),
   method .reflect "Reflect.preventExtensions" 1 fun m c => do
      return .boolean (← m.preventExtensions (← targetOf (c.arg 0))),
   method .reflect "Reflect.set" 3 fun m c => do
      let r ← targetOf (c.arg 0)
      let k ← m.toKey (c.arg 1)
      return .boolean (← m.setFor r k (c.arg 2) (if c.args.length < 4 then c.arg 0 else c.arg 3)),
   method .reflect "Reflect.setPrototypeOf" 2 fun m c => do
      let r ← targetOf (c.arg 0)
      match protoArgument? (c.arg 1) with
      | some p => return .boolean (← m.setProtoOf r p)
      | none => throwType "proto must be an object or null"]

end Builtin

end ScriptBoundary.Script
