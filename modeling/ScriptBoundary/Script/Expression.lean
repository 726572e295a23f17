import ScriptBoundary.Script.Closure
import ScriptBoundary.Script.Operator
import ScriptBoundary.Script.Pattern
import ScriptBoundary.Script.Proxy

/-!
# Expressions

What an expression evaluates to. Operands that wait for others are held: they take slots of the
operand stack and keep what they refer to alive.
-/

namespace ScriptBoundary.Script

open Script.Comp

/-- A function that is about to be called, with its `this`. -/
structure Callee where
  function : Value
  this : Value

/-- The accessor a getter or setter makes of the present property. -/
def accessorSlot (present : Option Slot) (isGetter : Bool) (fn : Value) (enumerable : Bool) : Slot :=
  let (g, t) : Value × Value := match present with
    | some ⟨.accessor g t, _, _⟩ => (g, t)
    | _ => (.undefined, .undefined)
  ⟨if isGetter then .accessor fn t else .accessor g fn, enumerable, true⟩

/-- Runs code of a class outside its methods: `this` is given and the class is the callee. -/
def classFrame (f : Frame) (callee : Ref) (this : Value) : Comp Frame := do
  let scope ← perform (.newScope ⟨#[], some f.scope, some ⟨some this, callee, .undefined⟩, none⟩)
  return { f with scope := scope, strict := true }

namespace Machine

variable (m : Machine)

/-- The arguments of a call, from left to right. -/
def evalArgs (f : Frame) : List Code → Comp (List Value)
  | [] => pure []
  | .spread e :: rest => do
    let vs ← m.listOfIterable (← m.eval f e)
    let more ← keeping vs (evalArgs f rest)
    return vs ++ more
  | e :: rest => do
    let v ← m.eval f e
    let more ← holding [v] (evalArgs f rest)
    return v :: more

/-- The items of an array literal; a hole leaves its index out. -/
def evalItems (f : Frame) (r : Ref) (next : Nat) : List Code → Comp Unit
  | [] => writeLength r next true
  | .absent :: rest => evalItems f r (next + 1) rest
  | .spread e :: rest => do
    let vs ← m.listOfIterable (← m.eval f e)
    forList (fun (v, i) => performOnly (.putSlot r (Key.ofNat (next + i)) (Slot.plain v))) vs.zipIdx
    evalItems f r (next + vs.length) rest
  | e :: rest => do
    let v ← m.eval f e
    performOnly (.putSlot r (Key.ofNat next) (Slot.plain v))
    evalItems f r (next + 1) rest

/-- Defines a method or an accessor on an object that is its home. -/
def defineMember (f : Frame) (r : Ref) (enumerable : Bool) (k : Key) (sort : FunctionSort)
    (code : Code) : Comp Unit := do
  let fn ← newClosure f.scope code (k.functionName sort) (some r)
  let present ← ownSlot r k
  let slot : Slot := match sort with
    | .getter => accessorSlot present true (.object fn) enumerable
    | .setter => accessorSlot present false (.object fn) enumerable
    | _ => ⟨.data (.object fn) true, enumerable, true⟩
  performOnly (.putSlot r k slot)

/-- One member of an object literal. -/
def evalMember (f : Frame) (r : Ref) (member : Code) : Comp Unit := do
  match member with
  | .field name e =>
    let k ← m.keyOfName f name
    performOnly (.putSlot r k (Slot.plain (← m.eval f e)))
  | .method name code => defineMember f r true (← m.keyOfName f name) .method code
  | .getter name code => defineMember f r true (← m.keyOfName f name) .getter code
  | .setter name code => defineMember f r true (← m.keyOfName f name) .setter code
  | .protoField e =>
    match ← m.eval f e with
    | .object p => performOnly (.setProto r (some p))
    | .null => performOnly (.setProto r none)
    | _ => return
  | .spread e =>
    let v ← m.eval f e
    unless v.isNullish do m.copyProps r (← toObject v) []
  | _ => return

/-- The parts of a template, evaluated before any is turned into text. -/
def evalParts (f : Frame) : List Code → Comp (List Value)
  | [] => pure []
  | e :: rest => do
    let v ← m.eval f e
    let more ← holding [v] (evalParts f rest)
    return v :: more

/-- A template's texts with the texts of its parts between them. -/
def joinParts : Text → List Text → List Value → Comp Text
  | out, t :: ts, v :: vs => do joinParts (out ++ (← m.toText v) ++ t) ts vs
  | out, _, _ => pure out

/-- Runs the field initialisers of a class on a new instance. -/
def initialiseFields (callee : Ref) (this : Value) : Comp Unit := do
  match (← readObject callee).nature, this with
  | .closure c, .object r =>
    forList (fun (k, e) => do
      let f ← classFrame ⟨c.scope, ← perform .newTally, true⟩ callee this
      let v ← (match e with
        | .absent => pure .undefined
        | e => m.eval f e : Comp Value)
      m.createOrThrow r k v) c.fields
  | _, _ => return

/-- Evaluates a callee so far that its `this` is known. No value if a link was skipped. -/
def calleeOf (f : Frame) (e : Expr) : Comp (Option Callee) := do
  match e with
  | .member o k optional =>
    match ← m.chain f o with
    | none => return none
    | some base =>
      if optional && base.isNullish then return none
      else return some ⟨← m.getOf base k, base⟩
  | .element o k optional =>
    match ← m.chain f o with
    | none => return none
    | some base =>
      if optional && base.isNullish then return none
      else
        let key ← holding [base] (m.eval f k)
        if base.isNullish then throwType "cannot convert 'null' or 'undefined' to object"
        else return some ⟨← m.getOf base (← holding [base] (m.toKey key)), base⟩
  | .superMember k =>
    let this ← readThis f
    match ← m.superBase f with
    | .object p => return some ⟨← m.getFor p k this, this⟩
    | v => return some ⟨← m.getOf v k, this⟩
  | .superElement e =>
    let this ← readThis f
    let k ← m.toKey (← m.eval f e)
    match ← m.superBase f with
    | .object p => return some ⟨← m.getFor p k this, this⟩
    | v => return some ⟨← m.getOf v k, this⟩
  | e => return (← m.chain f e).map fun v => ⟨v, .undefined⟩

/-- The callee inside parentheses, which do not hide its `this`. -/
def ungroup : Nat → Expr → Expr
  | fuel + 1, .grouped e => ungroup fuel e
  | _, e => e

/-- Expressions that may be part of an optional chain. -/
def chainTask (f : Frame) (e : Expr) : Comp (Option Value) := do
  match e with
  | .member .. | .element .. => return (← m.calleeOf f e).map Callee.function
  | .call callee args optional =>
    match ← m.calleeOf f (ungroup 8 callee) with
    | none => return none
    | some c =>
      if optional && c.function.isNullish then return none
      else
        let vs ← holding [c.this, c.function] (m.evalArgs f args)
        return some (← m.call c.function c.this vs)
  | e => return some (← m.eval f e)

/-- The value of a target that is about to be changed, and how to store the new one. -/
def readTarget (f : Frame) (target : Code) : Comp (Value × (Value → Comp Unit)) := do
  match target with
  | .ident name => return (← m.readName f name, m.writeName f name)
  | .member o k _ =>
    let base ← m.eval f o
    return (← holding [base] (m.getOf base k), m.putOf f base k)
  | .element o e _ =>
    let base ← m.eval f o
    let key ← holding [base] (m.eval f e)
    if base.isNullish then throwType "cannot convert 'null' or 'undefined' to object"
    else
      let k ← holding [base] (m.toKey key)
      return (← holding [base] (m.getOf base k), m.putOf f base k)
  | .superMember k => do
    let c ← m.calleeOf f (.superMember k)
    return ((c.map Callee.function).getD .undefined, m.putSuper f k)
  | .superElement e => do
    let k ← m.toKey (← m.eval f e)
    let c ← m.calleeOf f (.superMember k)
    return ((c.map Callee.function).getD .undefined, m.putSuper f k)
  | _ => throwUnresolved ""

/-- What keeps the base of a member target alive while the new value is computed. -/
def evalAssign (f : Frame) (op : AssignOp) (target value : Code) : Comp Value := do
  match op with
  | .plain =>
    match target with
    | .member o k _ =>
      let base ← m.eval f o
      let v ← holding [base] (m.eval f value)
      holding [v] (m.putOf f base k v)
      return v
    | .element o e _ =>
      let base ← m.eval f o
      let key ← holding [base] (m.eval f e)
      let v ← holding [base, key] (m.eval f value)
      if base.isNullish then throwType "cannot convert 'null' or 'undefined' to object"
      else
        let k ← holding [base, v] (m.toKey key)
        holding [v] (m.putOf f base k v)
        return v
    | target =>
      let v ← m.eval f value
      holding [v] (m.bindTo f .assign target v)
      return v
  | .arithmetic op =>
    let (old, store) ← m.readTarget f target
    let v ← holding [old] (m.eval f value)
    let v ← m.binary op old v
    store v
    return v
  | .logical op =>
    let (old, store) ← m.readTarget f target
    let wanted := match op with
      | .and => old.truthy
      | .or => !old.truthy
      | .nullish => old.isNullish
    if wanted then
      let v ← m.eval f value
      store v
      return v
    else return old

/-- Increment and decrement, before or after. -/
def evalUpdate (f : Frame) (increment before : Bool) (target : Code) : Comp Value := do
  let (old, store) ← m.readTarget f target
  match ← m.toNumeric old with
  | .bigint n =>
    let new : Value := .bigint (if increment then n + 1 else n - 1)
    store new
    return if before then new else .bigint n
  | .number x =>
    let new : Value := .number (if increment then x + 1.0 else x - 1.0)
    store new
    return if before then new else .number x
  | v => return v

def evalDelete (f : Frame) (e : Expr) : Comp Value := do
  let remove (base : Value) (k : Key) : Comp Value := do
    let r ← toObject base
    if ← m.delete r k then return .boolean true
    else if f.strict then throwType "Cannot delete property"
    else return .boolean false
  match ungroup 8 e with
  | .ident name => return .boolean (← m.deleteName f name)
  | .member o k optional =>
    match ← m.chain f o with
    | none => return .boolean true
    | some base =>
      if optional && base.isNullish then return .boolean true else remove base k
  | .element o k optional =>
    match ← m.chain f o with
    | none => return .boolean true
    | some base =>
      if optional && base.isNullish then return .boolean true
      else
        let key ← holding [base] (m.eval f k)
        remove base (← m.toKey key)
  | .chain (.member o k optional) =>
    match ← m.chain f o with
    | none => return .boolean true
    | some base =>
      if optional && base.isNullish then return .boolean true else remove base k
  | e =>
    let _ ← m.eval f e
    return .boolean true

/-- Calls the parent constructor and makes its result `this`. -/
def evalSuperCall (f : Frame) (args : List Code) : Comp Value := do
  match ← enclosingCall? f with
  | none => throwUnresolved "super"
  | some c =>
    let parent ← m.protoOf c.info.callee
    let vs ← m.evalArgs f args
    match parent, c.info.newTarget with
    | some p, .object newTarget =>
      if !(← isConstructor (.object p)) then throwType "super constructor object must be constructor"
      else
        let this ← m.construct p vs newTarget
        let now ← readScope c.scope
        if (now.call.bind (·.this)).isSome then
          raise .referenceError "Super constructor may only be called once"
        else
          performOnly (.setThis c.scope this)
          m.initialiseFields c.info.callee this
          return this
    | _, _ => throwType "super constructor object must be constructor"

/-- The constructor of a class that does not write one. -/
def defaultConstructor (derived : Bool) (name : String) : Code :=
  let args : Code := .spread (.ident "args")
  let info : FunctionInfo :=
    { name, sort := .constructor derived, strict := true, simpleParams := !derived, length := 0,
      varNames := [], lexicals := [], bindsItself := false, mentionsArguments := false }
  if derived then .function info [args] [] [.expr (.superCall [args])]
  else .function info [] [] []

/-- The prototypes a class starts from: for its instances and for itself. -/
def parentOf (f : Frame) (parent : Code) : Comp (Option Ref × Ref) := do
  match parent with
  | .absent => return (some (← intrinsic .objectPrototype), ← intrinsic .functionPrototype)
  | e =>
    match ← m.eval f e with
    | .null => return (none, ← intrinsic .functionPrototype)
    | .object p =>
      if !(← isConstructor (.object p)) then throwType "superclass must be a constructor"
      else
        match ← m.get p (Key.ofString "prototype") with
        | .object q => return (some q, p)
        | .null => return (none, p)
        | _ => throwType "superclass prototype must be an object or null"
    | _ => throwType "superclass must be a constructor"

/-- Defines the members of a class; gives the instance fields and the static fields. -/
def classMembers (f : Frame) (constructor proto : Ref) (fields : List (Key × Code)) :
    List Code → Comp (List (Key × Code))
  | [] => pure fields.reverse
  | member :: rest => do
    let (owner, isStatic, inner) := match member with
      | .static inner => (constructor, true, inner)
      | inner => (proto, false, inner)
    match inner with
    | .method name code =>
      defineMember f owner false (← m.keyOfName f name) .method code
      classMembers f constructor proto fields rest
    | .getter name code =>
      defineMember f owner false (← m.keyOfName f name) .getter code
      classMembers f constructor proto fields rest
    | .setter name code =>
      defineMember f owner false (← m.keyOfName f name) .setter code
      classMembers f constructor proto fields rest
    | .field name e =>
      let k ← m.keyOfName f name
      if isStatic then
        let inner ← classFrame f constructor (.object constructor)
        let v ← (match e with
          | .absent => pure .undefined
          | e => m.eval inner e : Comp Value)
        m.createOrThrow constructor k v
        classMembers f constructor proto fields rest
      else classMembers f constructor proto ((k, e) :: fields) rest
    | _ => classMembers f constructor proto fields rest

/-- A class: its constructor with a prototype object and the members on either. -/
def evalClass (f : Frame) (name : Option String) (parent constructor : Code)
    (members : List Code) : Comp Value := do
  let scope ← newScope f.scope (name.toList.map fun n => ⟨n, none, false, true⟩)
  let f := { f with scope := scope, strict := true }
  holdingRefs [scope] do
    let (protoParent, parentFunction) ← m.parentOf f parent
    let proto ← newObject .plain protoParent ∅
    let shown := name.getD ""
    let code := match constructor with
      | .absent => defaultConstructor (!parent.isAbsent) shown
      | c => c
    let c ← newClosure scope code (Text.ofString shown) (some proto)
    performOnly (.setProto c (some parentFunction))
    performOnly (.putSlot c (Key.ofString "prototype") (Slot.fixed (.object proto)))
    performOnly (.putSlot proto (Key.ofString "constructor") (Slot.hidden (.object c)))
    let fields ← holdingRefs [c, proto] (m.classMembers f c proto [] members)
    match (← readObject c).nature with
    | .closure k => performOnly (.setNature c (.closure { k with fields }))
    | _ => pure ()
    match name with
    | some n => initialiseName f n (.object c)
    | none => pure ()
    return .object c

/-- Expressions. -/
def evalTask (f : Frame) (e : Expr) : Comp Value := do
  match e with
  | .null => return .null
  | .boolean b => return .boolean b
  | .number x => return .number x
  | .text t => return .text t
  | .bigint n => return .bigint n
  | .ident name => m.readName f name
  | .this => readThis f
  | .newTarget =>
    match ← enclosingCall? f with
    | some c => return c.info.newTarget
    | none => return .undefined
  | .template texts parts =>
    let vs ← m.evalParts f parts
    match texts with
    | [] => return .text .empty
    | t :: ts => return .text (← m.joinParts t ts vs)
  | .array items =>
    let r ← newArray []
    holding [.object r] (m.evalItems f r 0 items)
    return .object r
  | .object members =>
    let r ← newPlain
    holding [.object r] (forList (m.evalMember f r) members)
    return .object r
  | .function info _ _ _ =>
    if info.bindsItself then
      let scope ← newScope f.scope [⟨info.name, none, false, false⟩]
      let r ← newNamedClosure scope e
      performOnly (.store scope info.name (.object r))
      return .object r
    else return .object (← newNamedClosure f.scope e)
  | .classDef name parent constructor members => m.evalClass f name parent constructor members
  | .unary .typeOf (.ident name) =>
    match ← m.readName? f name with
    | some v => m.unary .typeOf v
    | none => return Value.ofString "undefined"
  | .unary op e => m.unary op (← m.eval f e)
  | .delete e => m.evalDelete f e
  | .update increment before target => m.evalUpdate f increment before target
  | .binary op a b =>
    let a ← m.eval f a
    let b ← holding [a] (m.eval f b)
    m.binary op a b
  | .logical op a b =>
    let v ← m.eval f a
    let more := match op with
      | .and => v.truthy
      | .or => !v.truthy
      | .nullish => v.isNullish
    if more then m.eval f b else return v
  | .conditional c a b => if (← m.eval f c).truthy then m.eval f a else m.eval f b
  | .assign op target value => m.evalAssign f op target value
  | .sequence a b =>
    let _ ← m.eval f a
    m.eval f b
  | .member .. | .element .. | .call .. => return (← m.chainTask f e).getD .undefined
  | .superMember _ | .superElement _ =>
    return ((← m.calleeOf f e).map Callee.function).getD .undefined
  | .superCall args => m.evalSuperCall f args
  | .construct callee args =>
    let c ← m.eval f callee
    let vs ← holding [c] (m.evalArgs f args)
    match c with
    | .object r =>
      if ← isConstructor c then m.construct r vs r else throwType "not a constructor"
    | _ => throwType "not a constructor"
  | .chain e => return (← m.chain f e).getD .undefined
  | .grouped e => m.eval f e
  | _ => return .undefined

end Machine

end ScriptBoundary.Script
