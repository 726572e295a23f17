import ScriptBoundary.Script.Call

/-!
# Built-in functions

A built-in function knows the object it is a property of, its key there, and what it does. Realms
are laid out from the list of them, and calls find them by path.
-/

namespace ScriptBoundary.Script

open Script.Comp

/-- How a built-in function hangs on its owner. -/
inductive BuiltinRole where
  | method
  /-- A method that other parts of a realm refer to, with the cell it has there. -/
  | shared (self : Intrinsic)
  | getter
  | setter
  /-- A constructor, with the cell it has in a realm and the prototype of what it makes. -/
  | constructor (self : Intrinsic) (proto : Option Intrinsic)
deriving Repr

structure Builtin where
  owner : Intrinsic
  path : String
  key : Key
  length : Nat
  role : BuiltinRole
  run : Machine → BuiltinCall → Comp Value

namespace Builtin

/-- What stands after the last point of a path. -/
def lastPart (path : String) : String :=
  .ofList (path.toList.reverse.takeWhile (· != '.')).reverse

def method (owner : Intrinsic) (path : String) (length : Nat)
    (run : Machine → BuiltinCall → Comp Value) : Builtin :=
  ⟨owner, path, Key.ofString (lastPart path), length, .method, run⟩

def symbolMethod (owner : Intrinsic) (path : String) (symbol : Symbol) (length : Nat)
    (run : Machine → BuiltinCall → Comp Value) : Builtin :=
  ⟨owner, path, .symbol symbol, length, .method, run⟩

def getter (owner : Intrinsic) (path : String) (key : Key)
    (run : Machine → BuiltinCall → Comp Value) : Builtin := ⟨owner, path, key, 0, .getter, run⟩

def setter (owner : Intrinsic) (path : String) (key : Key)
    (run : Machine → BuiltinCall → Comp Value) : Builtin := ⟨owner, path, key, 1, .setter, run⟩

/-- A constructor, which is a property of the global object. -/
def constructor (self : Intrinsic) (proto : Option Intrinsic) (path : String) (length : Nat)
    (run : Machine → BuiltinCall → Comp Value) : Builtin :=
  ⟨.globalObject, path, Key.ofString path, length, .constructor self proto, run⟩

/-- The name the function shows. -/
def shownName (b : Builtin) : Text :=
  b.key.functionName (match b.role with
    | .getter => .getter
    | .setter => .setter
    | _ => .method)

def constructs (b : Builtin) : Bool :=
  match b.role with
  | .constructor .. => true
  | _ => false

/-- The cell that is reserved for the function. -/
def cell? (b : Builtin) : Option Intrinsic :=
  match b.role with
  | .constructor self _ | .shared self => some self
  | _ => none

end Builtin

namespace BuiltinCall

variable (c : BuiltinCall)

/-- Makes the object a constructor gives, with the prototype `new` asks for. -/
def make (m : Machine) (nature : Nature) (proto : Intrinsic) : Comp Value := do
  let p ← (match c.newTarget with
    | some t => protoFor m t proto
    | none => intrinsic proto : Comp Ref)
  return .object (← newObject nature (some p) ∅)

/-- The nature of `this`, `plain` where `this` is no object. -/
def thisNature : Comp Nature := do
  match c.this with
  | .object r => return (← readObject r).nature
  | _ => return .plain

end BuiltinCall

/-- Calls the function a built-in was given for every element. -/
def requireCallable (v : Value) : Comp Unit := do
  unless ← isCallable v do Machine.throwNotCallable

end ScriptBoundary.Script
