import ScriptBoundary.Script.Builtin.Objects
import ScriptBoundary.Script.Iteration

/-!
# The array constructor and prototype, and list iterators

Array functions work on whatever has a length and indices. The ones that make an array ask the
constructor of the array they were called on.
-/

namespace ScriptBoundary.Script

open Script.Comp

namespace Builtin

/-- A new array of some length without elements. -/
def emptyArray (n : Nat) : Comp Ref := do
  if 4294967295 < n then raise .rangeError "array exceeded max size"
  else
    let r ← newArray []
    unless n == 0 do writeLength r n true
    return r

/-- The array that results go into: of the class of the array they come from. -/
def speciesArray (m : Machine) (source : Ref) (n : Nat) : Comp Ref := do
  if !(← isArray (.object source)) then emptyArray n
  else
    let c ← m.get source (Key.ofString "constructor")
    let c ← (match c with
      | .object r => do
        let s ← m.get r (.symbol Symbol.species)
        return if s.isNullish then .undefined else s
      | v => pure v : Comp Value)
    match c with
    | .undefined => emptyArray n
    | .object r =>
      if ← isConstructor c then
        match ← m.construct r [Value.ofNat n] r with
        | .object a => return a
        | _ => emptyArray n
      else throwType "Symbol.species must be a constructor"
    | _ => throwType "Symbol.species must be a constructor"

/-- Sets the length of an array-like object. -/
def putLength (m : Machine) (r : Ref) (n : Nat) : Comp Unit := m.put r Key.length (Value.ofNat n)

/-- `this` as an object, with its length. -/
def arrayLike (m : Machine) (c : BuiltinCall) : Comp (Ref × Nat) := do
  let r ← toObject c.this
  return (r, ← m.lengthOf r)

/-- A position given as an argument, counted from the end if negative. -/
def position (m : Machine) (v : Value) (size absent : Nat) : Comp Nat := do
  if v.isUndefined then return absent else return (← m.toExtent v).within size

/-- Runs `f` on the present elements of an array-like object, in order. -/
def eachElement (m : Machine) (r : Ref) (n : Nat) (f : Nat → Value → Comp Unit) : Comp Unit :=
  forRange n 0 fun i => do
    if ← m.has r (Key.ofNat i) then f i (← m.get r (Key.ofNat i))

/-- Moves an element, or the lack of one. -/
def moveElement (m : Machine) (r : Ref) (source target : Nat) : Comp Unit := do
  if ← m.has r (Key.ofNat source) then
    m.put r (Key.ofNat target) (← m.get r (Key.ofNat source))
  else
    let _ ← m.deleteOrThrow r (Key.ofNat target)

/-- The texts of a list, empty for `undefined` and `null`, with a separator between them. -/
def joinElements (m : Machine) (r : Ref) (n : Nat) (separator : Text) : Comp Text := do
  let ts ← mapList (fun i => do
    let v ← m.get r (Key.ofNat i)
    if v.isNullish then return Text.empty else m.toText v) (List.range n)
  return Text.join separator ts

/-- The first position from a list of positions whose element satisfies a test. -/
def findPosition (test : Nat → Comp Bool) : List Nat → Comp (Option Nat)
  | [] => pure none
  | i :: rest => do if ← test i then return some i else findPosition test rest

/-- Calls a function as array functions call theirs. -/
def callOn (m : Machine) (c : BuiltinCall) (r : Ref) (v : Value) (i : Nat) : Comp Value :=
  m.call (c.arg 0) (c.arg 1) [v, Value.ofNat i, .object r]

/-- Folds the present elements at some positions. -/
def reduceOver (m : Machine) (c : BuiltinCall) (r : Ref) (positions : List Nat) : Comp Value := do
  requireCallable (c.arg 0)
  let present ← foldList (fun out i => do
    return if ← m.has r (Key.ofNat i) then i :: out else out) [] positions
  let present := present.reverse
  let step (acc : Value) (i : Nat) : Comp Value := do
    m.call (c.arg 0) .undefined [acc, ← m.get r (Key.ofNat i), Value.ofNat i, .object r]
  match c.args with
  | _ :: first :: _ => foldList step first present
  | _ =>
    match present with
    | [] => throwType "Array.prototype.reduce: called on an empty array and with no initial value"
    | i :: rest => foldList step (← m.get r (Key.ofNat i)) rest

/-- Whether the first of two elements goes before the second or beside it. -/
def inOrder (m : Machine) (compare : Value) (a b : Value) : Comp Bool := do
  match a, b with
  | .undefined, _ => return b.isUndefined
  | _, .undefined => return true
  | a, b =>
    if compare.isUndefined then
      let s ← m.toText a
      let t ← m.toText b
      return !(t.lt s)
    else
      let x ← m.toNumber (← m.call compare .undefined [a, b])
      return !(x > 0.0)

/-- Puts an element behind those that may stand before it. The list is in reverse order. -/
def insertSorted (m : Machine) (compare : Value) (v : Value) : List Value → Comp (List Value)
  | [] => pure [v]
  | w :: rest => do
    if ← inOrder m compare w v then return v :: w :: rest
    else return w :: (← insertSorted m compare v rest)

/-- Flattens nested arrays to some depth. -/
def flatten (m : Machine) : Nat → Value → Comp (List Value)
  | 0, v => pure [v]
  | depth + 1, v => do
    match v with
    | .object r =>
      if ← isArray v then
        let n ← m.lengthOf r
        foldList (fun out i => do
          if ← m.has r (Key.ofNat i) then
            return out ++ (← flatten m depth (← m.get r (Key.ofNat i)))
          else return out) [] (List.range n)
      else return [v]
    | v => return [v]

/-- Whether an argument of `concat` is spread into the result. -/
def isSpreadable (m : Machine) (v : Value) : Comp Bool := do
  match v with
  | .object r =>
    match ← m.get r (.symbol Symbol.isConcatSpreadable) with
    | .undefined => isArray v
    | s => return s.truthy
  | _ => return false

/-- Appends the parts of `concat` to the result; gives the length. -/
def appendAll (m : Machine) (out : Ref) : Nat → List Value → Comp Nat
  | n, [] => pure n
  | n, v :: rest => do
    match v, ← isSpreadable m v with
    | .object r, true =>
      let size ← m.lengthOf r
      eachElement m r size fun i w => m.createOrThrow out (Key.ofNat (n + i)) w
      appendAll m out (n + size) rest
    | v, _ =>
      m.createOrThrow out (Key.ofNat n) v
      appendAll m out (n + 1) rest

/-- What a list iterator gives: its subject's values, keys or both. -/
def newListIterator (subject : Value) (sort : Nat) : Comp Value := do
  let proto ← intrinsic .listIteratorPrototype
  return .object (← newObject (.listIterator subject 0 sort) (some proto) ∅)

/-- The object an iterator answers with. -/
def iteratorAnswer (v : Value) (done : Bool) : Comp Value := do
  let proto ← intrinsic .objectPrototype
  return .object (← newObject .plain (some proto)
    (.ofList [(Key.ofString "value", Slot.plain v),
      (Key.ofString "done", Slot.plain (.boolean done))]))

/-- The item of a list iterator at some position, and the position after it. -/
def itemAt (m : Machine) (subject : Value) (next sort : Nat) : Comp (Option (Value × Nat)) := do
  let shape (k v : Value) : Comp Value := do
    match sort with
    | 0 => return v
    | 1 => return k
    | _ => return .object (← newArray [k, v])
  match subject with
  | .text t =>
    let step := match t.units[next]?, t.units[next + 1]? with
      | some u, some v => if Utf16.isHigh u && Utf16.isLow v then 2 else 1
      | _, _ => 1
    if next < t.size then return some (.text (t.slice next (next + step)), next + step)
    else return none
  | .object r =>
    match (← readObject r).nature with
    | .map entries =>
      match (entries.toList.zipIdx.drop next).find? fun e => e.1.isSome with
      | some (some (k, v), i) => return some (← shape k v, i + 1)
      | _ => return none
    | .set entries =>
      match (entries.toList.zipIdx.drop next).find? fun e => e.1.isSome with
      | some (some v, i) => return some (← shape v v, i + 1)
      | _ => return none
    | _ =>
      if next < (← m.lengthOf r) then
        return some (← shape (Value.ofNat next) (← m.get r (Key.ofNat next)), next + 1)
      else return none
  | _ => return none

def iterators : List Builtin :=
  [method .listIteratorPrototype "List Iterator.prototype.next" 0 fun m c => do
      match c.this, ← c.thisNature with
      | .object r, .listIterator subject next sort =>
        match ← itemAt m subject next sort with
        | some (v, next) =>
          performOnly (.setNature r (.listIterator subject next sort))
          iteratorAnswer v false
        | none =>
          performOnly (.setNature r (.listIterator .undefined 0 sort))
          iteratorAnswer .undefined true
      | _, _ => throwType "'this' is not an iterator",
   symbolMethod .iteratorPrototype "Iterator.prototype[iterator]" Symbol.iterator 0 fun _ c =>
      return c.this]

def arrays : List Builtin :=
  [constructor .arrayConstructor (some .arrayPrototype) "Array" 1 fun m c => do
      let proto ← (match c.newTarget with
        | some t => protoFor m t .arrayPrototype
        | none => intrinsic .arrayPrototype : Comp Ref)
      let r ← (match c.args with
        | [.number x] =>
          if x.toWord.toNat.toFloat != x then raise .rangeError "invalid array length"
          else emptyArray x.toWord.toNat
        | vs => newArray vs : Comp Ref)
      performOnly (.setProto r (some proto))
      return .object r,
   method .arrayConstructor "Array.isArray" 1 fun _ c => do return .boolean (← isArray (c.arg 0)),
   method .arrayConstructor "Array.of" 0 fun _ c => do return .object (← newArray c.args),
   method .arrayConstructor "Array.from" 1 fun m c => do
      unless (c.arg 1).isUndefined do requireCallable (c.arg 1)
      let vs ← (do
        match ← m.getMethod (c.arg 0) (.symbol Symbol.iterator) with
        | some _ => m.listOfIterable (c.arg 0)
        | none => m.listOf (← toObject (c.arg 0)) : Comp (List Value))
      if (c.arg 1).isUndefined then return .object (← newArray vs)
      else
        let vs ← mapList (fun (v, i) => m.call (c.arg 1) (c.arg 2) [v, Value.ofNat i]) vs.zipIdx
        return .object (← newArray vs),
   getter .arrayConstructor "Array.get [species]" (.symbol Symbol.species) fun _ c =>
      return c.this,
   method .arrayPrototype "Array.prototype.at" 1 fun m c => do
      let (r, n) ← arrayLike m c
      match ← m.toExtent (c.arg 0) with
      | .finite i =>
        let i := if i < 0 then i + n else i
        if 0 ≤ i && i < n then m.get r (Key.ofNat i.toNat) else return .undefined
      | _ => return .undefined,
   method .arrayPrototype "Array.prototype.concat" 1 fun m c => do
      let r ← toObject c.this
      let out ← speciesArray m r 0
      let n ← appendAll m out 0 (.object r :: c.args)
      putLength m out n
      return .object out,
   method .arrayPrototype "Array.prototype.entries" 0 fun _ c => do
      newListIterator (.object (← toObject c.this)) 2,
   method .arrayPrototype "Array.prototype.every" 1 fun m c => do
      let (r, n) ← arrayLike m c
      requireCallable (c.arg 0)
      let failing ← findPosition (fun i => do
        if ← m.has r (Key.ofNat i) then
          return !(← callOn m c r (← m.get r (Key.ofNat i)) i).truthy
        else return false) (List.range n)
      return .boolean failing.isNone,
   method .arrayPrototype "Array.prototype.fill" 1 fun m c => do
      let (r, n) ← arrayLike m c
      let start ← position m (c.arg 1) n 0
      let stop ← position m (c.arg 2) n n
      forRange (stop - start) start fun i => m.put r (Key.ofNat i) (c.arg 0)
      return .object r,
   method .arrayPrototype "Array.prototype.filter" 1 fun m c => do
      let (r, n) ← arrayLike m c
      requireCallable (c.arg 0)
      let out ← speciesArray m r 0
      let _ ← foldList (fun next i => do
        if ← m.has r (Key.ofNat i) then
          let v ← m.get r (Key.ofNat i)
          if (← keeping [.object out] (callOn m c r v i)).truthy then
            m.createOrThrow out (Key.ofNat next) v
            return next + 1
          else return next
        else return next) 0 (List.range n)
      return .object out,
   method .arrayPrototype "Array.prototype.find" 1 fun m c => do
      let (r, n) ← arrayLike m c
      requireCallable (c.arg 0)
      match ← findPosition (fun i => do
        return (← callOn m c r (← m.get r (Key.ofNat i)) i).truthy) (List.range n) with
      | some i => m.get r (Key.ofNat i)
      | none => return .undefined,
   method .arrayPrototype "Array.prototype.findIndex" 1 fun m c => do
      let (r, n) ← arrayLike m c
      requireCallable (c.arg 0)
      match ← findPosition (fun i => do
        return (← callOn m c r (← m.get r (Key.ofNat i)) i).truthy) (List.range n) with
      | some i => return Value.ofNat i
      | none => return .number (-1.0),
   method .arrayPrototype "Array.prototype.flat" 0 fun m c => do
      let r ← toObject c.this
      let depth ← (if (c.arg 0).isUndefined then pure 1
        else do return (← m.toExtent (c.arg 0)).clamp 64 : Comp Nat)
      return .object (← newArray (← flatten m (depth + 1) (.object r))),
   method .arrayPrototype "Array.prototype.flatMap" 1 fun m c => do
      let (r, n) ← arrayLike m c
      requireCallable (c.arg 0)
      let vs ← foldList (fun out i => do
        if ← m.has r (Key.ofNat i) then
          let v ← keeping out (callOn m c r (← m.get r (Key.ofNat i)) i)
          return out ++ (← flatten m 1 v)
        else return out) [] (List.range n)
      return .object (← newArray vs),
   method .arrayPrototype "Array.prototype.forEach" 1 fun m c => do
      let (r, n) ← arrayLike m c
      requireCallable (c.arg 0)
      eachElement m r n fun i v => do
        let _ ← callOn m c r v i
      return .undefined,
   method .arrayPrototype "Array.prototype.includes" 1 fun m c => do
      let (r, n) ← arrayLike m c
      let start ← position m (c.arg 1) n 0
      let found ← findPosition (fun i => do
        return Value.sameValueZero (← m.get r (Key.ofNat i)) (c.arg 0)) ((List.range n).drop start)
      return .boolean found.isSome,
   method .arrayPrototype "Array.prototype.indexOf" 1 fun m c => do
      let (r, n) ← arrayLike m c
      let start ← position m (c.arg 1) n 0
      match ← findPosition (fun i => do
        if ← m.has r (Key.ofNat i) then
          return Value.strictEquals (← m.get r (Key.ofNat i)) (c.arg 0)
        else return false) ((List.range n).drop start) with
      | some i => return Value.ofNat i
      | none => return .number (-1.0),
   method .arrayPrototype "Array.prototype.join" 1 fun m c => do
      let (r, n) ← arrayLike m c
      let separator ← (if (c.arg 0).isUndefined then pure "," else m.toText (c.arg 0) : Comp Text)
      return .text (← joinElements m r n separator),
   method .arrayPrototype "Array.prototype.keys" 0 fun _ c => do
      newListIterator (.object (← toObject c.this)) 1,
   method .arrayPrototype "Array.prototype.lastIndexOf" 1 fun m c => do
      let (r, n) ← arrayLike m c
      let stop ← (if c.args.length < 2 then pure n
        else do
          match ← m.toExtent (c.arg 1) with
          | .finite i => return if i < 0 then (i + n + 1).toNat else min n (i.toNat + 1)
          | .above => return n
          | .below => return 0 : Comp Nat)
      match ← findPosition (fun i => do
        if ← m.has r (Key.ofNat i) then
          return Value.strictEquals (← m.get r (Key.ofNat i)) (c.arg 0)
        else return false) (List.range stop).reverse with
      | some i => return Value.ofNat i
      | none => return .number (-1.0),
   method .arrayPrototype "Array.prototype.map" 1 fun m c => do
      let (r, n) ← arrayLike m c
      requireCallable (c.arg 0)
      let out ← speciesArray m r n
      eachElement m r n fun i v => do
        let w ← keeping [.object out] (callOn m c r v i)
        m.createOrThrow out (Key.ofNat i) w
      return .object out,
   method .arrayPrototype "Array.prototype.pop" 0 fun m c => do
      let (r, n) ← arrayLike m c
      if n == 0 then
        putLength m r 0
        return .undefined
      else
        let v ← m.get r (Key.ofNat (n - 1))
        let _ ← m.deleteOrThrow r (Key.ofNat (n - 1))
        putLength m r (n - 1)
        return v,
   method .arrayPrototype "Array.prototype.push" 1 fun m c => do
      let (r, n) ← arrayLike m c
      if twoPow 53 - 1 < n + c.args.length then
        throwType "the length + the number of arguments exceed the maximum safe integer limit"
      else
        forList (fun (v, i) => m.put r (Key.ofNat (n + i)) v) c.args.zipIdx
        putLength m r (n + c.args.length)
        return Value.ofNat (n + c.args.length),
   method .arrayPrototype "Array.prototype.reduce" 1 fun m c => do
      let (r, n) ← arrayLike m c
      reduceOver m c r (List.range n),
   method .arrayPrototype "Array.prototype.reduceRight" 1 fun m c => do
      let (r, n) ← arrayLike m c
      reduceOver m c r (List.range n).reverse,
   method .arrayPrototype "Array.prototype.reverse" 0 fun m c => do
      let (r, n) ← arrayLike m c
      let vs ← mapList (fun i => do
        if ← m.has r (Key.ofNat i) then return some (← m.get r (Key.ofNat i)) else return none)
        (List.range n)
      forList (fun (v, i) => do
        match v with
        | some v => m.put r (Key.ofNat i) v
        | none =>
          let _ ← m.deleteOrThrow r (Key.ofNat i)) vs.reverse.zipIdx
      return .object r,
   method .arrayPrototype "Array.prototype.shift" 0 fun m c => do
      let (r, n) ← arrayLike m c
      if n == 0 then
        putLength m r 0
        return .undefined
      else
        let v ← m.get r (Key.ofNat 0)
        forRange (n - 1) 1 fun i => moveElement m r i (i - 1)
        let _ ← m.deleteOrThrow r (Key.ofNat (n - 1))
        putLength m r (n - 1)
        return v,
   method .arrayPrototype "Array.prototype.slice" 2 fun m c => do
      let (r, n) ← arrayLike m c
      let start ← position m (c.arg 0) n 0
      let stop ← position m (c.arg 1) n n
      let out ← speciesArray m r (stop - start)
      forRange (stop - start) start fun i => do
        if ← m.has r (Key.ofNat i) then
          m.createOrThrow out (Key.ofNat (i - start)) (← m.get r (Key.ofNat i))
      putLength m out (stop - start)
      return .object out,
   method .arrayPrototype "Array.prototype.some" 1 fun m c => do
      let (r, n) ← arrayLike m c
      requireCallable (c.arg 0)
      let found ← findPosition (fun i => do
        if ← m.has r (Key.ofNat i) then
          return (← callOn m c r (← m.get r (Key.ofNat i)) i).truthy
        else return false) (List.range n)
      return .boolean found.isSome,
   method .arrayPrototype "Array.prototype.sort" 1 fun m c => do
      unless (c.arg 0).isUndefined do requireCallable (c.arg 0)
      let (r, n) ← arrayLike m c
      let vs ← foldList (fun out i => do
        if ← m.has r (Key.ofNat i) then return (← m.get r (Key.ofNat i)) :: out
        else return out) [] (List.range n)
      let sorted ← foldList (fun out v => insertSorted m (c.arg 0) v out) [] vs.reverse
      forList (fun (v, i) => m.put r (Key.ofNat i) v) sorted.reverse.zipIdx
      forRange (n - sorted.length) sorted.length fun i => do
        let _ ← m.deleteOrThrow r (Key.ofNat i)
      return .object r,
   method .arrayPrototype "Array.prototype.splice" 2 fun m c => do
      let (r, n) ← arrayLike m c
      let start ← position m (c.arg 0) n 0
      let count ← (match c.args with
        | [] => pure 0
        | [_] => pure (n - start)
        | _ => do return (← m.toExtent (c.arg 1)).clamp (n - start) : Comp Nat)
      let out ← speciesArray m r count
      forRange count 0 fun i => do
        if ← m.has r (Key.ofNat (start + i)) then
          m.createOrThrow out (Key.ofNat i) (← m.get r (Key.ofNat (start + i)))
      putLength m out count
      let added := c.args.drop 2
      let tail := n - start - count
      if added.length < count then
        forRange tail (start + count) fun i => moveElement m r i (i + added.length - count)
        forList (fun i => do
          let _ ← m.deleteOrThrow r (Key.ofNat i))
          ((List.range n).drop (n + added.length - count)).reverse
      else if count < added.length then
        forList (fun i => moveElement m r i (i + added.length - count))
          (((List.range n).drop (start + count)).reverse)
      forList (fun (v, i) => m.put r (Key.ofNat (start + i)) v) added.zipIdx
      putLength m r (n + added.length - count)
      return .object out,
   method .arrayPrototype "Array.prototype.toLocaleString" 0 fun m c => do
      let (r, n) ← arrayLike m c
      return .text (← joinElements m r n ","),
   method .arrayPrototype "Array.prototype.toString" 0 fun m c => do
      let r ← toObject c.this
      let join ← m.get r (Key.ofString "join")
      if ← isCallable join then m.call join (.object r) [] else describeObject m (.object r),
   method .arrayPrototype "Array.prototype.unshift" 1 fun m c => do
      let (r, n) ← arrayLike m c
      let k := c.args.length
      if 0 < k then
        forList (fun i => moveElement m r i (i + k)) (List.range n).reverse
        forList (fun (v, i) => m.put r (Key.ofNat i) v) c.args.zipIdx
      putLength m r (n + k)
      return Value.ofNat (n + k),
   { method .arrayPrototype "Array.prototype.values" 0 fun _ c => do
        newListIterator (.object (← toObject c.this)) 0 with role := .shared .arrayValues }]

end Builtin

end ScriptBoundary.Script
