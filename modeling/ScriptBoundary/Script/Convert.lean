import ScriptBoundary.Script.Machine
import ScriptBoundary.Script.Numeral

/-!
# Conversions

How one kind of script value becomes another. Objects convert through their own methods, so a
conversion can run any script, call the host, throw, or hit a limit; only truth needs none of
that.

An object that is met again while it is still being converted to a primitive is not asked twice:
it counts as zero or as the empty text. The activation carries the objects concerned.
-/

namespace ScriptBoundary.Script

open Script.Comp

/-- What a conversion to a primitive is for. -/
inductive Hint where
  | default | number | string
deriving DecidableEq, Repr

namespace Hint

def text : Hint → String
  | .default => "default"
  | .number => "number"
  | .string => "string"

end Hint

/-- The integer part of a number, with the infinities kept apart. -/
inductive Extent where
  | below
  | finite (n : Int)
  | above
deriving Repr

namespace Extent

def ofFloat (x : Float) : Extent :=
  if x.isInf then (if x > 0.0 then .above else .below) else .finite x.toIntOrZero

/-- The position an extent names in something of a given size, negative ones from the end. -/
def within (e : Extent) (size : Nat) : Nat :=
  match e with
  | .below => 0
  | .above => size
  | .finite (.ofNat n) => min n size
  | .finite (.negSucc n) => size - (n + 1)

/-- The position an extent names, negative ones read as zero. -/
def clamp (e : Extent) (size : Nat) : Nat :=
  match e with
  | .below => 0
  | .above => size
  | .finite n => min n.toNat size

end Extent

namespace Heap

/-- Whether a value is an object that can be called. -/
def isCallable (h : Heap) (v : Value) : Bool :=
  match v with
  | .object r => (h.object r).nature.isCallable
  | _ => false

/-- The name of a value's type. -/
def typeName (h : Heap) (v : Value) : String :=
  match v with
  | .undefined => "undefined"
  | .null => "object"
  | .boolean _ => "boolean"
  | .number _ => "number"
  | .text _ => "string"
  | .symbol _ => "symbol"
  | .bigint _ => "bigint"
  | .object _ => if h.isCallable v then "function" else "object"

end Heap

/-- Whether a value is an object that can be called. -/
def isCallable (v : Value) : Comp Bool := inspect (·.isCallable v)

/-- Whether a value is an object that can be constructed. -/
def isConstructor (v : Value) : Comp Bool :=
  match v with
  | .object r => return (← readObject r).nature.isConstructor
  | _ => return false

/-- The name of a value's type. -/
def typeName (v : Value) : Comp String := inspect (·.typeName v)

/-- The object a primitive is wrapped in. -/
def toObject (v : Value) : Comp Ref := do
  let box (n : Nature) (i : Intrinsic) : Comp Ref := do newObject n (some (← intrinsic i)) ∅
  match v with
  | .object r => return r
  | .undefined | .null => throwType "cannot convert 'null' or 'undefined' to object"
  | .boolean b => box (.booleanBox b) .booleanPrototype
  | .number x => box (.numberBox x) .numberPrototype
  | .symbol s => box (.symbolBox s) .symbolPrototype
  | .bigint n => box (.bigintBox n) .bigintPrototype
  | .text t =>
    newObject (.stringBox t) (some (← intrinsic .stringPrototype))
      (.ofList [(Key.length, Slot.fixed (Value.ofNat t.size))])

/-- The prototype a primitive's properties come from. -/
def primitivePrototype? : Value → Option Intrinsic
  | .boolean _ => some .booleanPrototype
  | .number _ => some .numberPrototype
  | .text _ => some .stringPrototype
  | .symbol _ => some .symbolPrototype
  | .bigint _ => some .bigintPrototype
  | _ => none

/-- The property a text has of its own: a unit or the length. -/
def textProperty? (t : Text) (k : Key) : Option Value :=
  match k with
  | .index i => (t.unitAt? i.val).map .text
  | k => if k == Key.ofString "length" then some (Value.ofNat t.size) else none

/-- An array, also behind proxies. Proxies nest no deeper than the fuel. -/
def isArrayFrom : Nat → Ref → Comp Bool
  | 0, _ => exhausted
  | fuel + 1, r => do
    match (← readObject r).nature with
    | .array => return true
    | .proxy (some (target, _)) _ _ => isArrayFrom fuel target
    | .proxy none _ _ => throwType "Proxy object can't be null"
    | _ => return false

def isArray (v : Value) : Comp Bool :=
  match v with
  | .object r => do
    let size ← inspect (·.cells.size)
    isArrayFrom (size + 1) r
  | _ => return false

namespace Machine

variable (m : Machine)

/-- A property of any value; a primitive's are its prototype's. -/
def getOf (v : Value) (k : Key) : Comp Value := do
  match v with
  | .object r => m.getFor r k v
  | .undefined | .null => throwType "cannot convert 'null' or 'undefined' to object"
  | .text t =>
    match textProperty? t k with
    | some p => return p
    | none => m.getFor (← intrinsic .stringPrototype) k v
  | v =>
    match primitivePrototype? v with
    | some i => m.getFor (← intrinsic i) k v
    | none => return .undefined

/-- A property that is a function or missing. -/
def getMethod (v : Value) (k : Key) : Comp (Option Value) := do
  let f ← m.getOf v k
  if f.isNullish then return none
  else if ← isCallable f then return some f
  else throwType "value returned for property of object is not a function"

/-- Asks an object's own conversion methods in turn. -/
def askMethods (r : Ref) : List String → Comp Value
  | [] => throwType "cannot convert object to primitive value"
  | name :: rest => do
    let f ← m.get r (Key.ofString name)
    if ← isCallable f then
      let v ← holding [.object r] (m.call f (.object r) [])
      match v with
      | .object _ => askMethods r rest
      | v => return v
    else askMethods r rest

/-- Converts an object by `toString` and `valueOf`, in the order the hint asks for. -/
def ordinaryPrimitive (r : Ref) (hint : Hint) : Comp Value := do
  if (← activation).converting.contains r then
    return if hint == .string then .text .empty else .number 0.0
  else
    converting r <| m.askMethods r <|
      if hint == .string then ["toString", "valueOf"] else ["valueOf", "toString"]

/-- The primitive a value converts to. -/
def toPrimitive (v : Value) (hint : Hint) : Comp Value := do
  match v with
  | .object r =>
    match ← m.getMethod v (.symbol Symbol.toPrimitive) with
    | some f =>
      match ← holding [v] (m.call f v [Value.ofString hint.text]) with
      | .object _ => throwType "Symbol.toPrimitive cannot return an object"
      | p => return p
    | none => m.ordinaryPrimitive r (if hint == .default then .number else hint)
  | v => return v

/-- The number a primitive converts to. -/
def primitiveNumber (v : Value) : Comp Float := do
  match v with
  | .undefined => return 0.0 / 0.0
  | .null => return 0.0
  | .boolean b => return if b then 1.0 else 0.0
  | .number x => return x
  | .text t => return Numeral.numberOf t
  | .symbol _ => throwType "argument must not be a symbol"
  | .bigint _ => throwType "argument must not be a bigint"
  | .object _ => return 0.0 / 0.0

def toNumber (v : Value) : Comp Float := do primitiveNumber (← m.toPrimitive v .number)

/-- The number or big integer a value converts to. -/
def toNumeric (v : Value) : Comp Value := do
  match ← m.toPrimitive v .number with
  | .bigint n => return .bigint n
  | p => return .number (← primitiveNumber p)

/-- The text of a primitive. -/
def primitiveText (v : Value) : Comp Text := do
  match v with
  | .undefined => return "undefined"
  | .null => return "null"
  | .boolean b => return if b then "true" else "false"
  | .number x => return numberText x
  | .text t => return t
  | .symbol _ => throwType "can't convert symbol to string"
  | .bigint n => return toString n
  | .object _ => return .empty

def toText (v : Value) : Comp Text := do primitiveText (← m.toPrimitive v .string)

/-- The property key a value names. -/
def toKey (v : Value) : Comp Key := do
  match ← m.toPrimitive v .string with
  | .symbol s => return .symbol s
  | .number x => return Key.ofNumber x
  | p => return Key.ofText (← primitiveText p)

def toExtent (v : Value) : Comp Extent := do return .ofFloat (← m.toNumber v)

/-- The number of elements a value may stand for: from zero to `2 ^ 53 - 1`. -/
def toLength (v : Value) : Comp Nat := do return (← m.toExtent v).clamp (twoPow 53 - 1)

/-- How many elements an array-like object says it has. -/
def lengthOf (r : Ref) : Comp Nat := do
  let o ← readObject r
  match o.nature, o.props.find? (Key.ofString "length") with
  | .array, some ⟨.data (.number x) _, _, _⟩ => return x.toUInt64.toNat
  | _, _ => m.toLength (← m.get r (Key.ofString "length"))

/-- Stores a property; a refusal is an error. -/
def put (r : Ref) (k : Key) (v : Value) : Comp Unit := do
  unless ← m.set r k v do
    throwType ("cannot set non-writable property: " ++ k.show')

/-- Creates a property as assignments do; a refusal is an error. -/
def createOrThrow (r : Ref) (k : Key) (v : Value) : Comp Unit := do
  unless ← m.define r k (Descriptor.ofSlot (Slot.plain v)) do
    throwType ("cannot redefine property: " ++ k.show')

def defineOrThrow (r : Ref) (k : Key) (d : Descriptor) : Comp Unit := do
  unless ← m.define r k d do
    throwType ("cannot redefine property: " ++ k.show')

def deleteOrThrow (r : Ref) (k : Key) : Comp Bool := do
  unless ← m.delete r k do
    throwType ("cannot delete non-configurable property: " ++ k.show')
  return true

/-- The elements of an array-like object. -/
def listOf (r : Ref) : Comp (List Value) := do
  let n ← m.lengthOf r
  mapList (fun i => m.get r (Key.ofNat i)) (List.range n)

/-- The equality of `==` between primitives. -/
def looseEqualPrimitives (a b : Value) : Bool :=
  let number (x y : Float) : Bool := x == y
  let ofBool (b : Bool) : Float := if b then 1.0 else 0.0
  let exact (n : Int) (x : Float) : Bool := x.isIntegral && x.toIntOrZero == n
  match a, b with
  | .undefined, .null | .null, .undefined => true
  | .number x, .text t | .text t, .number x => number x (Numeral.numberOf t)
  | .boolean p, .number x | .number x, .boolean p => number x (ofBool p)
  | .boolean p, .text t | .text t, .boolean p => number (Numeral.numberOf t) (ofBool p)
  | .bigint n, .number x | .number x, .bigint n => exact n x
  | .bigint n, .boolean p | .boolean p, .bigint n => exact n (ofBool p)
  | .bigint n, .text t | .text t, .bigint n => Numeral.integerOf? t == some n
  | a, b => Value.strictEquals a b

/-- The equality of `==`. -/
def looseEquals (a b : Value) : Comp Bool := do
  match a, b with
  | .object r, .object q => return r == q
  | .object _, b =>
    if b.isNullish then return false else return looseEqualPrimitives (← m.toPrimitive a .default) b
  | a, .object _ =>
    if a.isNullish then return false else return looseEqualPrimitives a (← m.toPrimitive b .default)
  | a, b => return looseEqualPrimitives a b

/-- How a big integer compares with a number; nothing compares with a NaN. -/
def compareExact (n : Int) (x : Float) : Option Ordering :=
  if x.isNaN then none
  else if x.isInf then some (if x > 0.0 then .lt else .gt)
  else
    let k := x.toIntOrZero
    if n < k then some .lt
    else if k < n then some .gt
    else if Float.ofExactInt k < x then some .lt
    else if x < Float.ofExactInt k then some .gt
    else some .eq

/-- How two primitives compare, if they do. -/
def comparePrimitives (a b : Value) : Comp (Option Ordering) := do
  let numbers (x y : Float) : Option Ordering :=
    if x < y then some .lt else if y < x then some .gt else if x == y then some .eq else none
  match a, b with
  | .text s, .text t => return some (if s.lt t then .lt else if t.lt s then .gt else .eq)
  | .bigint m, .bigint n => return some (compare m n)
  | .bigint n, .text t => return (Numeral.integerOf? t).map (compare n)
  | .text t, .bigint n => return (Numeral.integerOf? t).map (compare · n)
  | .bigint n, b => return compareExact n (← primitiveNumber b)
  | a, .bigint n => return (compareExact n (← primitiveNumber a)).map Ordering.swap
  | a, b =>
    let x ← primitiveNumber a
    return numbers x (← primitiveNumber b)

end Machine

end ScriptBoundary.Script
