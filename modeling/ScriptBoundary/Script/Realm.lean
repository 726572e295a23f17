import ScriptBoundary.Script.Builtin.Collections
import ScriptBoundary.Script.Builtin.Dates
import ScriptBoundary.Script.Builtin.Functions
import ScriptBoundary.Script.Builtin.Numbers
import ScriptBoundary.Script.Builtin.Texts
import Std.Data.HashMap

/-!
# Laying out a realm

The built-in objects of a realm stand side by side in the heap, first those with a name of their
own (`Intrinsic`), then the other functions. So a realm is a block of cells that differs from one
realm to the next only in where it stands, and `Heap.addRealm` can build it for any address.

After the objects come the scope of the global `let` and `const` names and the realm itself.
-/

namespace ScriptBoundary.Script

namespace Builtin

/-- All built-in functions. -/
def all : List Builtin :=
  objects ++ functions ++ errors ++ symbols ++ arrays ++ iterators ++ texts ++ numbers
    ++ mathematics ++ dates ++ collections ++ reflection

/-- The built-in functions without a cell of their own. -/
def unnamed : List Builtin := all.filter fun b => b.cell?.isNone

/-- The built-in functions by path. -/
def table : Std.HashMap String (Machine → BuiltinCall → Comp Value) :=
  all.foldl (fun t b => t.insert b.path b.run) ∅

/-- What a built-in function does. -/
def find? : Builtins := fun path => table[path]?

end Builtin

namespace Intrinsic

/-- How many cells are reserved for objects with a name of their own. -/
def count : Nat := Intrinsic.arrayValues.ctorIdx + 1

/-- All of them in the order of their cells. -/
def all : List Intrinsic := (List.range count).map Intrinsic.ofNat

/-- The cell of an intrinsic object in the realm at a base address. -/
def at' (base : Ref) (i : Intrinsic) : Ref := base + i.ctorIdx

/-- What an intrinsic object that is no function is beyond its properties. -/
def nature : Intrinsic → Nature
  | .arrayPrototype => .array
  | .stringPrototype => .stringBox .empty
  | .numberPrototype => .numberBox 0.0
  | .booleanPrototype => .booleanBox false
  | _ => .plain

/-- The prototype of an intrinsic object. -/
def parent? : Intrinsic → Option Intrinsic
  | .objectPrototype => none
  | .typeErrorPrototype | .rangeErrorPrototype | .referenceErrorPrototype | .syntaxErrorPrototype
  | .evalErrorPrototype | .uriErrorPrototype | .aggregateErrorPrototype => some .errorPrototype
  | .typeErrorConstructor | .rangeErrorConstructor | .referenceErrorConstructor
  | .syntaxErrorConstructor | .evalErrorConstructor | .uriErrorConstructor
  | .aggregateErrorConstructor => some .errorConstructor
  | .listIteratorPrototype => some .iteratorPrototype
  | .objectConstructor | .functionConstructor | .arrayConstructor | .stringConstructor
  | .numberConstructor | .booleanConstructor | .symbolConstructor | .bigintConstructor
  | .dateConstructor | .errorConstructor | .proxyConstructor | .mapConstructor | .setConstructor
  | .weakMapConstructor | .weakSetConstructor | .arrayValues => some .functionPrototype
  | _ => some .objectPrototype

/-- A property that shows what sort of object something is. -/
def tag (name : String) : Key × Slot :=
  (.symbol Symbol.toStringTag, Slot.readOnly (Value.ofString name))

/-- The name and the empty message of an error prototype. -/
def errorFields (name : String) : List (Key × Slot) :=
  [(Key.ofString "name", Slot.hidden (Value.ofString name)),
   (Key.ofString "message", Slot.hidden (.text .empty))]

/-- A constant of a constructor or namespace object. -/
def constant (name : String) (x : Float) : Key × Slot := (Key.ofString name, Slot.fixed (.number x))

/-- The own properties of an intrinsic object that are not built-in functions. -/
def fields (base : Ref) : Intrinsic → List (Key × Slot)
  | .globalObject =>
    let hidden (name : String) (i : Intrinsic) : Key × Slot :=
      (Key.ofString name, Slot.hidden (.object (i.at' base)))
    [hidden "globalThis" .globalObject, constant "Infinity" (1.0 / 0.0),
     constant "NaN" (0.0 / 0.0), (Key.ofString "undefined", Slot.fixed .undefined),
     hidden "JSON" .json, hidden "Math" .math, hidden "Reflect" .reflect]
  | .arrayPrototype =>
    [(Key.length, ⟨.data (.number 0.0) true, false, false⟩),
     (.symbol Symbol.iterator, Slot.hidden (.object (Intrinsic.arrayValues.at' base)))]
  | .stringPrototype => [(Key.length, Slot.fixed (.number 0.0))]
  | .errorPrototype => errorFields "Error"
  | .typeErrorPrototype => errorFields "TypeError"
  | .rangeErrorPrototype => errorFields "RangeError"
  | .referenceErrorPrototype => errorFields "ReferenceError"
  | .syntaxErrorPrototype => errorFields "SyntaxError"
  | .evalErrorPrototype => errorFields "EvalError"
  | .uriErrorPrototype => errorFields "URIError"
  | .aggregateErrorPrototype => errorFields "AggregateError"
  | .symbolPrototype => [tag "Symbol"]
  | .bigintPrototype => [tag "BigInt"]
  | .mapPrototype => [tag "Map"]
  | .setPrototype => [tag "Set"]
  | .weakMapPrototype => [tag "WeakMap"]
  | .weakSetPrototype => [tag "WeakSet"]
  | .listIteratorPrototype => [tag "Array Iterator"]
  | .json => [tag "JSON"]
  | .reflect => [tag "Reflect"]
  | .math =>
    [tag "Math", constant "E" 2.718281828459045, constant "LN10" 2.302585092994046,
     constant "LN2" 0.6931471805599453, constant "LOG10E" 0.4342944819032518,
     constant "LOG2E" 1.4426950408889634, constant "PI" 3.141592653589793,
     constant "SQRT1_2" 0.7071067811865476, constant "SQRT2" 1.4142135623730951]
  | .numberConstructor =>
    [constant "EPSILON" 2.220446049250313e-16, constant "MAX_SAFE_INTEGER" 9007199254740991.0,
     constant "MIN_SAFE_INTEGER" (-9007199254740991.0),
     constant "MAX_VALUE" 1.7976931348623157e308, constant "MIN_VALUE" 5e-324,
     constant "POSITIVE_INFINITY" (1.0 / 0.0), constant "NEGATIVE_INFINITY" (-1.0 / 0.0),
     constant "NaN" (0.0 / 0.0)]
  | .symbolConstructor =>
    Symbol.wellKnowns.map fun (name, s) => (Key.ofString name, Slot.fixed (.symbol s))
  | _ => []

end Intrinsic

namespace Realm

/-- The cell of a built-in function: its own, or the next one after those with a name. -/
def cellOf (base index : Nat) (b : Builtin) : Ref :=
  match b.cell? with
  | some i => i.at' base
  | none => base + Intrinsic.count + index

/-- The property of its owner that a built-in function is, laid over what is there. -/
def ownerSlot (present : Option Slot) (b : Builtin) (r : Ref) : Slot :=
  let (g, t) : Value × Value := match present with
    | some ⟨.accessor g t, _, _⟩ => (g, t)
    | _ => (.undefined, .undefined)
  match b.role with
  | .getter => ⟨.accessor (.object r) t, false, true⟩
  | .setter => ⟨.accessor g (.object r), false, true⟩
  | _ => Slot.hidden (.object r)

/-- Every built-in function with its cell. -/
def placed (base : Ref) : List (Builtin × Ref) :=
  (Builtin.all.filter fun b => b.cell?.isSome).map (fun b => (b, cellOf base 0 b))
    ++ Builtin.unnamed.zipIdx.map fun (b, i) => (b, cellOf base i b)

/-- The properties that built-in functions are of some object. -/
def methodsOf (owner : Intrinsic) (placed : List (Builtin × Ref)) : List (Builtin × Ref) :=
  placed.filter fun (b, _) => b.owner == owner && b.path != "Function.prototype"

/-- The properties a constructor and its prototype have of each other. -/
def links (placed : List (Builtin × Ref)) (base : Ref) (i : Intrinsic) : List (Key × Slot) :=
  placed.filterMap fun (b, r) =>
    match b.role with
    | .constructor self (some proto) =>
      if self == i then some (Key.ofString "prototype", Slot.fixed (.object (proto.at' base)))
      else if proto == i then some (Key.ofString "constructor", Slot.hidden (.object r))
      else none
    | _ => none

/-- The object of a built-in function, without the properties that other functions are of it. -/
def functionObject (base realm : Ref) (b : Builtin) (parent : Intrinsic) : Object :=
  ⟨.builtin b.path realm b.constructs, some (parent.at' base), true,
    .ofList (functionProps b.shownName b.length), none⟩

/-- An object with a name of its own. -/
def intrinsicObject (base realm : Ref) (placed : List (Builtin × Ref)) (i : Intrinsic) : Object :=
  let own : Object := match placed.find? fun (b, _) => b.cell? == some i with
    | some (b, _) => functionObject base realm b .functionPrototype
    | none => ⟨i.nature, none, true, ∅, none⟩
  let props : Props := (i.fields base ++ links placed base i).foldl
    (fun ps (k, s) => ps.insert k s) own.props
  let props := (methodsOf i placed).foldl
    (fun (ps : Props) (b, r) => ps.insert b.key (ownerSlot (ps.find? b.key) b r)) props
  { own with proto := i.parent?.map (·.at' base), props }

/-- The cells of a realm that begins at an address. -/
def cells (base : Ref) : Array Cell :=
  let placed := placed base
  let functionCount := Builtin.unnamed.length
  let scope := base + Intrinsic.count + functionCount
  let realm := scope + 1
  let named := Intrinsic.all.map fun i => Cell.object (intrinsicObject base realm placed i)
  let functions := Builtin.unnamed.map fun b =>
    Cell.object (functionObject base realm b .functionPrototype)
  (named ++ functions).toArray
    ++ #[.scope ⟨#[], none, none, some realm⟩, .realm ⟨base, scope, Intrinsic.count + functionCount⟩]

end Realm

/-- Adds a realm to the heap and gives its address. -/
def Heap.addRealm (h : Heap) : Heap × Ref :=
  let cells := h.cells ++ Realm.cells h.cells.size
  ({ h with cells }, cells.size - 1)

end ScriptBoundary.Script
