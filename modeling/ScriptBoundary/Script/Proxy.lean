import ScriptBoundary.Script.Property

/-!
# Proxies

A proxy hands each internal method to a function of its handler, the trap, or to its target where
the handler has none. What a trap answers is checked against the target: it may hide and invent
much, but nothing that the target has fixed.
-/

namespace ScriptBoundary.Script

open Script.Comp

/-- The property a descriptor object asks for. -/
def descriptorOf (m : Machine) (v : Value) : Comp Descriptor := do
  match v with
  | .object r =>
    let part (name : String) : Comp (Option Value) := do
      if ← m.has r (Key.ofString name) then return some (← m.get r (Key.ofString name))
      else return none
    let enumerable := (← part "enumerable").map Value.truthy
    let configurable := (← part "configurable").map Value.truthy
    let value ← part "value"
    let writable := (← part "writable").map Value.truthy
    let callable (name : String) (p : Option Value) : Comp Unit := do
      match p with
      | none | some .undefined => pure ()
      | some f =>
        unless ← isCallable f do
          throwType ("Property descriptor " ++ name ++ " must be callable")
    let get ← part "get"
    callable "getter" get
    let set ← part "set"
    callable "setter" set
    let d : Descriptor := { value, get, set, writable, enumerable, configurable }
    if d.isAccessor && d.isData then
      throwType "Invalid property descriptor. Cannot both specify accessors and a value or writable attribute"
    else return d
  | _ => throwType "Cannot construct a property descriptor from a non-object"

/-- The object that describes a property. -/
def describe (s : Slot) : Comp Value := do
  let field (name : String) (v : Value) : Key × Slot := (Key.ofString name, Slot.plain v)
  let parts : List (Key × Slot) := match s.content with
    | .data v w => [field "value" v, field "writable" (.boolean w)]
    | .accessor g t => [field "get" g, field "set" t]
  let shared := [field "enumerable" (.boolean s.enumerable),
    field "configurable" (.boolean s.configurable)]
  let proto ← intrinsic .objectPrototype
  return .object (← newObject .plain (some proto) (.ofList (parts ++ shared)))

/-- The object that describes what a descriptor asks for. -/
def describePartly (d : Descriptor) : Comp Value := do
  let flag (name : String) (b : Option Bool) : List (Key × Slot) :=
    (b.map fun b => (Key.ofString name, Slot.plain (.boolean b))).toList
  let part (name : String) (v : Option Value) : List (Key × Slot) :=
    (v.map fun v => (Key.ofString name, Slot.plain v)).toList
  let parts := part "value" d.value ++ flag "writable" d.writable ++ part "get" d.get
    ++ part "set" d.set ++ flag "enumerable" d.enumerable ++ flag "configurable" d.configurable
  let proto ← intrinsic .objectPrototype
  return .object (← newObject .plain (some proto) (.ofList parts))

/-- The value that stands for a key. -/
def Key.toValue : Key → Value
  | .symbol s => .symbol s
  | k => .text (k.text?.getD .empty)

/-- A prototype as a value. -/
def protoValue : Option Ref → Value
  | some r => .object r
  | none => .null

namespace Machine

variable (m : Machine)

/-- Target and trap of a proxy, the trap if the handler has it. -/
def trap (parts : Option (Ref × Ref)) (name : String) : Comp (Ref × Ref × Option Value) := do
  match parts with
  | none => throwType "Proxy target and handler are empty"
  | some (target, handler) =>
    let f ← m.getMethod (.object handler) (Key.ofString name)
    return (target, handler, f)

/-- Calls a trap. -/
def callTrap (f : Value) (handler : Ref) (args : List Value) : Comp Value :=
  m.call f (.object handler) args

def proxyProtoOf (parts : Option (Ref × Ref)) : Comp (Option Ref) := do
  match ← m.trap parts "getPrototypeOf" with
  | (target, _, none) => m.protoOf target
  | (target, handler, some f) =>
    let answer ← m.callTrap f handler [.object target]
    let p ← (match answer with
      | .object r => pure (some r)
      | .null => pure none
      | _ => throwType "Proxy trap result is neither object nor null" : Comp (Option Ref))
    if ← m.isExtensible target then return p
    else if p == (← m.protoOf target) then return p
    else throwType "Proxy trap returned unexpected prototype"

def proxySetProto (parts : Option (Ref × Ref)) (p : Option Ref) : Comp Bool := do
  match ← m.trap parts "setPrototypeOf" with
  | (target, _, none) => m.setProtoOf target p
  | (target, handler, some f) =>
    let answer ← m.callTrap f handler [.object target, protoValue p]
    if !answer.truthy then return false
    else if ← m.isExtensible target then return true
    else if p == (← m.protoOf target) then return true
    else throwType "Proxy trap failed to set prototype"

def proxyIsExtensible (parts : Option (Ref × Ref)) : Comp Bool := do
  match ← m.trap parts "isExtensible" with
  | (target, _, none) => m.isExtensible target
  | (target, handler, some f) =>
    let answer := (← m.callTrap f handler [.object target]).truthy
    if answer == (← m.isExtensible target) then return answer
    else throwType "Proxy trap returned unexpected extensible value"

def proxyPreventExtensions (parts : Option (Ref × Ref)) : Comp Bool := do
  match ← m.trap parts "preventExtensions" with
  | (target, _, none) => m.preventExtensions target
  | (target, handler, some f) =>
    let answer := (← m.callTrap f handler [.object target]).truthy
    if answer && (← m.isExtensible target) then
      throwType "Proxy trap failed to set extensible"
    else return answer

def proxyGetOwn (parts : Option (Ref × Ref)) (k : Key) : Comp (Option Slot) := do
  match ← m.trap parts "getOwnPropertyDescriptor" with
  | (target, _, none) => m.getOwn target k
  | (target, handler, some f) =>
    let answer ← m.callTrap f handler [.object target, k.toValue]
    let present ← m.getOwn target k
    match answer with
    | .undefined =>
      match present with
      | none => return none
      | some s =>
        if !s.configurable then
          throwType "Proxy trap result is undefined and target result is not configurable"
        else if ← m.isExtensible target then return none
        else throwType "Proxy trap result is undefined and target is not extensible"
    | .object _ =>
      let extensible ← m.isExtensible target
      let d ← descriptorOf m answer
      let shown := d.toSlot
      let full := Descriptor.ofSlot shown
      let fits := match present with
        | none => extensible
        | some s => full.isAllowedOver s
      if !fits then throwType "Proxy trap returned unexpected property"
      else if shown.configurable then return some shown
      else
        match present with
        | none => throwType "Proxy trap returned unexpected property"
        | some s =>
          if s.configurable then throwType "Proxy trap returned unexpected property"
          else if d.writable == some false && s.isWritable then
            throwType "Proxy trap returned unexpected property"
          else return some shown
    | _ => throwType "Proxy trap result is neither object nor undefined"

def proxyDefine (parts : Option (Ref × Ref)) (k : Key) (d : Descriptor) : Comp Bool := do
  match ← m.trap parts "defineProperty" with
  | (target, _, none) => m.define target k d
  | (target, handler, some f) =>
    let answer ← m.callTrap f handler [.object target, k.toValue, ← describePartly d]
    if !answer.truthy then return false
    else
      let present ← m.getOwn target k
      let extensible ← m.isExtensible target
      let fixes := d.configurable == some false
      match present with
      | none =>
        if !extensible || fixes then throwType "Proxy trap failed to set property"
        else return true
      | some s =>
        let bad := !d.isAllowedOver s || (fixes && s.configurable)
          || (!s.isAccessor && !s.configurable && s.isWritable && d.writable == some false)
        if bad then throwType "Proxy trap set unexpected property" else return true

def proxyHas (parts : Option (Ref × Ref)) (k : Key) : Comp Bool := do
  match ← m.trap parts "has" with
  | (target, _, none) => m.has target k
  | (target, handler, some f) =>
    let answer := (← m.callTrap f handler [.object target, k.toValue]).truthy
    if answer then return true
    else
      match ← m.getOwn target k with
      | none => return false
      | some s =>
        if !s.configurable then throwType "Proxy trap returned unexpected property"
        else if ← m.isExtensible target then return false
        else throwType "Proxy trap returned unexpected property"

def proxyGet (parts : Option (Ref × Ref)) (k : Key) (receiver : Value) : Comp Value := do
  match ← m.trap parts "get" with
  | (target, _, none) => m.getFor target k receiver
  | (target, handler, some f) =>
    let answer ← m.callTrap f handler [.object target, k.toValue, receiver]
    match ← m.getOwn target k with
    | some ⟨.data v false, _, false⟩ =>
      if Value.sameValue answer v then return answer
      else throwType "Proxy trap returned unexpected data descriptor"
    | some ⟨.accessor .undefined _, _, false⟩ =>
      if answer.isUndefined then return answer
      else throwType "Proxy trap returned unexpected accessor descriptor"
    | _ => return answer

def proxySet (parts : Option (Ref × Ref)) (k : Key) (v receiver : Value) : Comp Bool := do
  match ← m.trap parts "set" with
  | (target, _, none) => m.setFor target k v receiver
  | (target, handler, some f) =>
    let answer ← m.callTrap f handler [.object target, k.toValue, v, receiver]
    if !answer.truthy then return false
    else
      match ← m.getOwn target k with
      | some ⟨.data w false, _, false⟩ =>
        if Value.sameValue v w then return true
        else throwType "Proxy trap set unexpected data descriptor"
      | some ⟨.accessor _ .undefined, _, false⟩ =>
        throwType "Proxy trap set unexpected accessor descriptor"
      | _ => return true

def proxyDelete (parts : Option (Ref × Ref)) (k : Key) : Comp Bool := do
  match ← m.trap parts "deleteProperty" with
  | (target, _, none) => m.delete target k
  | (target, handler, some f) =>
    let answer ← m.callTrap f handler [.object target, k.toValue]
    if !answer.truthy then return false
    else
      match ← m.getOwn target k with
      | none => return true
      | some s =>
        if !s.configurable then throwType "Proxy trap failed to delete property"
        else if ← m.isExtensible target then return true
        else throwType "Proxy trap failed to delete property"

/-- The keys a list of values names: texts and symbols only. -/
def keysOfValues : List Value → Comp (List Key)
  | [] => pure []
  | v :: rest => do
    let k ← (match v with
      | .text t => pure (Key.ofText t)
      | .symbol s => pure (.symbol s)
      | _ => throwType "Proxy trap result must be a list of strings and symbols" : Comp Key)
    return k :: (← keysOfValues rest)

def proxyOwnKeys (parts : Option (Ref × Ref)) : Comp (List Key) := do
  match ← m.trap parts "ownKeys" with
  | (target, _, none) => m.ownKeys target
  | (target, handler, some f) =>
    let answer ← m.callTrap f handler [.object target]
    let ks ← (match answer with
      | .object r => do keysOfValues (← m.listOf r)
      | _ => throwType "cannot create list from a non-object" : Comp (List Key))
    if ks.eraseDups.length != ks.length then
      throwType "Proxy trap result contains duplicate string property keys"
    else
      let extensible ← m.isExtensible target
      let own ← m.ownKeys target
      let fixed ← foldList (fun out k => do
        match ← m.getOwn target k with
        | some s => return if s.configurable then out else k :: out
        | none => return out) [] own
      if extensible && fixed.isEmpty then return ks
      else if !(fixed.all ks.contains) then
        throwType "Proxy trap failed to return all non-configurable property keys"
      else if extensible then return ks
      else if (own.all ks.contains) && own.length == ks.length then return ks
      else throwType "Proxy trap failed to return all property keys"

end Machine

/-! ## The internal methods of any object -/

namespace Machine

variable (m : Machine)

/-- Runs an internal method as a proxy's or as an ordinary object's. -/
def onProxy {α : Type} (r : Ref) (proxy : Option (Ref × Ref) → Comp α) (ordinary : Comp α) :
    Comp α := do
  match (← readObject r).nature with
  | .proxy parts _ _ => proxy parts
  | _ => ordinary

def getOwnTask (r : Ref) (k : Key) : Comp (Option Slot) :=
  onProxy r (m.proxyGetOwn · k) (ownSlot r k)

def defineTask (r : Ref) (k : Key) (d : Descriptor) : Comp Bool :=
  onProxy r (m.proxyDefine · k d) (m.defineOwn r k d)

def hasTask (r : Ref) (k : Key) : Comp Bool := onProxy r (m.proxyHas · k) (m.hasIn r k)

def getTask (r : Ref) (k : Key) (receiver : Value) : Comp Value :=
  onProxy r (m.proxyGet · k receiver) (m.getFrom r k receiver)

def setTask (r : Ref) (k : Key) (v receiver : Value) : Comp Bool :=
  onProxy r (m.proxySet · k v receiver) (m.setIn r k v receiver)

def deleteTask (r : Ref) (k : Key) : Comp Bool := onProxy r (m.proxyDelete · k) (deleteFrom r k)

def ownKeysTask (r : Ref) : Comp (List Key) := onProxy r m.proxyOwnKeys (ownKeysOf r)

def protoOfTask (r : Ref) : Comp (Option Ref) :=
  onProxy r m.proxyProtoOf (do return (← readObject r).proto)

def setProtoOfTask (r : Ref) (p : Option Ref) : Comp Bool :=
  onProxy r (m.proxySetProto · p) (changeProto r p)

def isExtensibleTask (r : Ref) : Comp Bool :=
  onProxy r m.proxyIsExtensible (do return (← readObject r).extensible)

def preventExtensionsTask (r : Ref) : Comp Bool :=
  onProxy r m.proxyPreventExtensions do
    performOnly (.closeObject r)
    return true

end Machine

end ScriptBoundary.Script
