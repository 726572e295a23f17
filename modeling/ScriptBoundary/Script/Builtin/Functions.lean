import ScriptBoundary.Script.Builtin.Basic

/-!
# The function constructor and prototype, errors and symbols
-/

namespace ScriptBoundary.Script

open Script.Comp

namespace Builtin

/-- The source of a function that has none to show. -/
def nativeSource (name : Text) : Value := .text ("function " ++ name ++ "() \x7b [native code] \x7d")

/-- The name and length of a bound function follow its target's. -/
def boundProps (m : Machine) (target : Ref) (given : Nat) : Comp (List (Key × Slot)) := do
  let length ← (do
    if (← m.getOwn target Key.length).isSome then
      match ← m.get target Key.length with
      | .number x =>
        match Extent.ofFloat x with
        | .above => return (1.0 / 0.0 : Float)
        | .below => return 0.0
        | .finite n => return Float.ofNat (n.toNat - given)
      | _ => return 0.0
    else return 0.0 : Comp Float)
  let name ← m.get target (Key.ofString "name")
  let base : Text := match name with
    | .text t => t
    | _ => .empty
  return [(Key.length, Slot.readOnly (.number length)),
    (Key.ofString "name", Slot.readOnly (.text ("bound " ++ base)))]

def functions : List Builtin :=
  [constructor .functionConstructor (some .functionPrototype) "Function" 1 fun _ _ => do
      raise .syntaxError "functions cannot be made from text",
   -- The prototype of functions is itself a function, which does nothing.
   { method .globalObject "Function.prototype" 0 fun _ _ => return .undefined with
      role := .shared .functionPrototype },
   method .functionPrototype "Function.prototype.apply" 2 fun m c => do
      requireCallable c.this
      match c.arg 1 with
      | .object r => m.call c.this (c.arg 0) (← m.listOf r)
      | v =>
        if v.isNullish then m.call c.this (c.arg 0) []
        else throwType "cannot create list from a non-object",
   method .functionPrototype "Function.prototype.bind" 1 fun m c => do
      match c.this with
      | .object target =>
        let n := (← readObject target).nature
        if !n.isCallable then throwType "cannot bind `this` without a `[[Call]]` internal method"
        else
          let proto ← m.protoOf target
          let bound ← newObject (.bound target (c.arg 0) c.args.tail n.isConstructor) proto ∅
          let props ← boundProps m target c.args.tail.length
          forList (fun (k, s) => performOnly (.putSlot bound k s)) props
          return .object bound
      | _ => throwType "cannot bind `this` without a `[[Call]]` internal method",
   method .functionPrototype "Function.prototype.call" 1 fun m c => do
      requireCallable c.this
      m.call c.this (c.arg 0) c.args.tail,
   method .functionPrototype "Function.prototype.toString" 0 fun m c => do
      match c.this with
      | .object r =>
        match (← readObject r).nature with
        | .closure k => return nativeSource (Text.ofString k.info.name)
        | .builtin .. | .hostFunction _ =>
          match ← m.get r (Key.ofString "name") with
          | .undefined | .null => return nativeSource .empty
          | v => return nativeSource (← m.toText v)
        | .bound .. | .proxy _ true _ => return nativeSource .empty
        | _ => throwType "not a function"
      | _ => throwType "not a function",
   symbolMethod .functionPrototype "Function.prototype[hasInstance]" Symbol.hasInstance 1 fun m c => do
      match c.this with
      | .object r =>
        let size ← inspect (·.cells.size)
        return .boolean (← m.ordinaryInstanceOf (size + 1) (c.arg 0) r)
      | _ => return .boolean false]

/-- A constructor of error objects. -/
def errorConstructor (k : ErrorClass) (self : Intrinsic) : Builtin :=
  constructor self (some k.proto) k.name 1 fun m c => do
    let v ← c.make m .error k.proto
    match v with
    | .object r =>
      unless (c.arg 0).isUndefined do
        let t ← m.toText (c.arg 0)
        performOnly (.putSlot r (Key.ofString "message") (Slot.hidden (.text t)))
      match c.arg 1 with
      | .object options =>
        if ← m.has options (Key.ofString "cause") then
          let cause ← m.get options (Key.ofString "cause")
          performOnly (.putSlot r (Key.ofString "cause") (Slot.hidden cause))
      | _ => pure ()
      return v
    | _ => return v

/-- The text of an error: its name, its message, or both with a colon between. -/
def errorText (m : Machine) (r : Ref) : Comp Text := do
  let part (k : String) (absent : Text) : Comp Text := do
    match ← m.get r (Key.ofString k) with
    | .undefined => return absent
    | v => m.toText v
  let name ← part "name" "Error"
  let message ← part "message" .empty
  if name.isEmpty then return message
  else if message.isEmpty then return name
  else return name ++ ": " ++ message

def errors : List Builtin :=
  [errorConstructor .error .errorConstructor,
   errorConstructor .typeError .typeErrorConstructor,
   errorConstructor .rangeError .rangeErrorConstructor,
   errorConstructor .referenceError .referenceErrorConstructor,
   errorConstructor .syntaxError .syntaxErrorConstructor,
   errorConstructor .evalError .evalErrorConstructor,
   errorConstructor .uriError .uriErrorConstructor,
   constructor .aggregateErrorConstructor (some .aggregateErrorPrototype) "AggregateError" 2
    fun m c => do
      let v ← c.make m .error .aggregateErrorPrototype
      match v with
      | .object r =>
        unless (c.arg 1).isUndefined do
          let t ← m.toText (c.arg 1)
          performOnly (.putSlot r (Key.ofString "message") (Slot.hidden (.text t)))
        let list ← newArray (← m.listOfIterable (c.arg 0))
        performOnly (.putSlot r (Key.ofString "errors") (Slot.hidden (.object list)))
        return v
      | _ => return v,
   method .errorPrototype "Error.prototype.toString" 0 fun m c => do
      match c.this with
      | .object r => return .text (← errorText m r)
      | _ => throwType "'this' is not an Object"]

/-- The symbol that `this` is or wraps. -/
def thisSymbol (c : BuiltinCall) : Comp Symbol := do
  match c.this, ← c.thisNature with
  | .symbol s, _ => return s
  | _, .symbolBox s => return s
  | _, _ => throwType "'this' is not a Symbol"

def symbols : List Builtin :=
  [constructor .symbolConstructor (some .symbolPrototype) "Symbol" 0 fun m c => do
      if c.newTarget.isSome then throwType "Symbol is not a constructor"
      else
        let description ← (if (c.arg 0).isUndefined then pure none
          else do return some (← m.toText (c.arg 0)) : Comp (Option Text))
        return .symbol ⟨← perform .newSymbol, description⟩,
   method .symbolPrototype "Symbol.prototype.toString" 0 fun _ c => do
      return .text ("Symbol(" ++ ((← thisSymbol c).description.getD .empty) ++ ")"),
   method .symbolPrototype "Symbol.prototype.valueOf" 0 fun _ c => do
      return .symbol (← thisSymbol c),
   getter .symbolPrototype "Symbol.prototype.description" (Key.ofString "description") fun _ c => do
      match (← thisSymbol c).description with
      | some t => return .text t
      | none => return .undefined,
   symbolMethod .symbolPrototype "Symbol.prototype[toPrimitive]" Symbol.toPrimitive 1 fun _ c => do
      return .symbol (← thisSymbol c)]

end Builtin

end ScriptBoundary.Script
