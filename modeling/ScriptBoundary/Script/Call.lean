import ScriptBoundary.Script.Statement

/-!
# Calls

Calling and constructing functions of every nature. A limit is checked when a script function or a
built-in is entered. A script function takes a frame and slots for itself, its `this` and its
arguments; a built-in takes neither, since its operands have left the stack by then.
-/

namespace ScriptBoundary.Script

open Script.Comp

/-- A call of a built-in function. -/
structure BuiltinCall where
  callee : Ref
  this : Value
  args : List Value
  /-- The function `new` was applied to, if the call constructs. -/
  newTarget : Option Ref

namespace BuiltinCall

/-- An argument, `undefined` where there is none. -/
def arg (c : BuiltinCall) (i : Nat) : Value := c.args.getD i .undefined

end BuiltinCall

/-- The built-in functions by name: what each does. -/
abbrev Builtins := String → Option (Machine → BuiltinCall → Comp Value)

/-- Fails if the calls in progress have reached a limit, with so many slots about to be used. -/
def checkLimits (slots : Nat) : Comp Unit := do
  let act ← activation
  if act.limits.recursion ≤ act.frames then exceed .recursion
  else if act.limits.stackSize ≤ act.slots + slots then exceed .stack

/-- The first binding of each name, with later values for repeated names. -/
def bindParams : List String → List Value → Array Binding → Array Binding
  | [], _, out => out
  | n :: ns, vs, out =>
    let b : Binding := ⟨n, some (vs.headD .undefined), true, true⟩
    let out := match out.findIdx? fun c => c.name == n with
      | some i => out.setIfInBounds i b
      | none => out.push b
    bindParams ns vs.tail out

namespace Machine

variable (m : Machine)

/-- Gives parameters that are more than names their arguments. -/
def bindPatterns (f : Frame) : List Pattern → List Value → Comp Unit
  | [], _ => pure ()
  | [.spread target], vs => do m.bindTo f .initialise target (.object (← newArray vs))
  | p :: ps, vs => do
    m.bindTo f .initialise p (vs.headD .undefined)
    bindPatterns f ps vs.tail

/-- Runs the body of a script function in its own activation. -/
def runBody (r : Ref) (c : Closure) (this : Option Value) (newTarget : Value) (args : List Value) :
    Comp (Option Value × Ref) := do
  let names := c.params.flatMap (Code.boundNames 64)
  let fresh (n : String) : Binding := ⟨n, none, true, true⟩
  let params := if c.info.simpleParams then bindParams names args #[] else (names.map fresh).toArray
  let vars := c.info.varNames.filter fun n => !(names.contains n)
  let varBindings := vars.map fun n => (⟨n, some .undefined, true, true⟩ : Binding)
  let call := if c.info.sort.isArrow then none else some ⟨this, r, newTarget⟩
  let wantsArguments := c.info.mentionsArguments && !c.info.sort.isArrow
    && !(names.contains "arguments")
  let scope ← perform (.newScope ⟨params, some c.scope, call, none⟩)
  holdingRefs [scope] do
    if wantsArguments then
      let a ← newArguments c r scope args
      performOnly (.bind scope ⟨"arguments", some (.object a), true, true⟩)
    let vars := if wantsArguments then varBindings.filter (·.name != "arguments") else varBindings
    forList (fun b => performOnly (.bind scope b)) vars
    forList (fun l => performOnly (.bind scope (Lexical.binding l))) c.info.lexicals
    let f : Frame := ⟨scope, ← perform .newTally, c.info.strict⟩
    unless c.info.simpleParams do m.bindPatterns f c.params args
    declareFunctions scope c.functions
    match ← m.execList f none c.body with
    | .returned v => return (some v, scope)
    | _ => return (none, scope)

/-- What a call holds and counts while a script function runs. -/
def enterScript {α : Type} (r : Ref) (c : Closure) (this : Value) (args : List Value)
    (body : Comp α) : Comp α := do
  let slots := 2 + args.length
  checkLimits slots
  within (fun act => { act with
    realm := c.realm
    frames := act.frames + 1
    slots := act.slots + slots
    held := r :: c.scope :: this.links ++ args.flatMap Value.links ++ act.held }) body

/-- What a call holds while a built-in runs. -/
def enterBuiltin {α : Type} (r : Ref) (realm : Ref) (this : Value) (args : List Value)
    (body : Comp α) : Comp α := do
  checkLimits 0
  within (fun act => { act with
    realm := realm
    held := r :: this.links ++ args.flatMap Value.links ++ act.held }) body

/-- The `this` a function sees: sloppy code sees objects only. -/
def seenThis (c : Closure) (this : Value) : Comp Value := do
  if c.info.strict then return this
  else if this.isNullish then return .object (← globalObjectOf c.realm)
  else return .object (← toObject this)

def throwNotCallable {α : Type} : Comp α := throwType "not a callable function"

variable (library : Builtins)

/-- Calls a value. -/
def callTask (callee this : Value) (args : List Value) : Comp Value := do
  match callee with
  | .object r =>
    let o ← readObject r
    match o.nature with
    | .closure c =>
      enterScript r c this args do
        if c.info.sort.isClassConstructor then
          throwType "class constructor cannot be invoked without 'new'"
        else
          let seen ← (if c.info.sort.isArrow then pure .undefined else seenThis c this : Comp Value)
          let (v, _) ← m.runBody r c (some seen) .undefined args
          return v.getD .undefined
    | .builtin name realm _ =>
      enterBuiltin r realm this args <|
        match library name with
        | some run => run m ⟨r, this, args, none⟩
        | none => throwNotCallable
    | .hostFunction realm =>
      enterBuiltin r realm this args <|
        match o.anchor with
        | some a => callHost a this args
        | none => return .undefined
    | .bound target boundThis boundArgs _ => m.call (.object target) boundThis (boundArgs ++ args)
    | .proxy parts true _ =>
      match ← m.trap parts "apply" with
      | (target, _, none) => m.call (.object target) this args
      | (target, handler, some f) =>
        m.callTrap f handler [.object target, this, .object (← newArray args)]
    | _ => throwNotCallable
  | _ => throwNotCallable

/-- Constructs with a script function: a base constructor makes the object, a derived one leaves
that to its parent. -/
def constructClosure (r : Ref) (c : Closure) (args : List Value) (newTarget : Ref) : Comp Value := do
  enterScript r c (.object newTarget) args do
    if c.info.sort == .constructor true then
      match ← m.runBody r c none (.object newTarget) args with
      | (some (.object q), _) => return .object q
      | (some v, scope) =>
        if !v.isUndefined then throwType "derived constructor can only return an Object or undefined"
        else finishDerived scope
      | (none, scope) => finishDerived scope
    else
      let proto ← protoFor m newTarget .objectPrototype
      let this := Value.object (← newObject .plain (some proto) ∅)
      m.initialiseFields r this
      match ← holding [this] (m.runBody r c (some this) (.object newTarget) args) with
      | (some (.object q), _) => return .object q
      | _ => return this
where
  /-- The `this` that the parent constructor left in the scope of the call. -/
  finishDerived (scope : Ref) : Comp Value := do
    match (← readScope scope).call.bind (·.this) with
    | some v => return v
    | none =>
      raise .referenceError "Must call super constructor in derived class before accessing 'this' or returning from derived constructor"

/-- Constructs with a function that may construct. -/
def constructTask (callee : Ref) (args : List Value) (newTarget : Ref) : Comp Value := do
  match (← readObject callee).nature with
  | .closure c => m.constructClosure callee c args newTarget
  | .builtin name realm true =>
    enterBuiltin callee realm .undefined args <|
      match library name with
      | some run => run m ⟨callee, .undefined, args, some newTarget⟩
      | none => throwType "not a constructor"
  | .bound target _ boundArgs true =>
    m.construct target (boundArgs ++ args) (if newTarget == callee then target else newTarget)
  | .proxy parts _ true =>
    match ← m.trap parts "construct" with
    | (target, _, none) => m.construct target args newTarget
    | (target, handler, some f) =>
      let list := Value.object (← newArray args)
      match ← m.callTrap f handler [.object target, list, .object newTarget] with
      | .object r => return .object r
      | _ => throwType "Proxy trap constructor returned non-object value"
  | _ => throwType "not a constructor"

end Machine

end ScriptBoundary.Script
